import Maubot.Client.Calm

namespace Maubot

open Prog

/-!
# Clients — who syncs

Five methods start or stop the sync task, and each looks at other flags.

* `fine_start`, `fine_stop`, … — what each method needs to keep the sync of its client in order;
* `Op.SyncSafe` — the calls that keep it so (`calm_exec`): the switch of the access details
  and `clear_cache` start the sync without asking whether the client is started;
* `syncOk_of_safe` — the resulting property over whole runs.
-/

variable {L : Type} {S : Setup L}

namespace Client

open ClientView

variable {P : Ref → Prop} {c q : Ref} {w w' : World L} {v : ClientView}

/-! ### Steps of the client itself -/

/-- The frame of a step that keeps the sync of the client in order. -/
def KeepsSync : Frame ClientView := .ofInv SyncOk

/-- A step that is seen to keep the sync leaves a client fine. -/
theorem fine_of_seen {α : Type} {m : Action L α} (hm : Keeps (Seen L c KeepsSync) m)
    (h : Fine c w) : Fine c (m.exec w).2 := by
  obtain ⟨v, hv, hok⟩ := h
  obtain ⟨v', hv', hok'⟩ := hm w v hv
  exact ⟨v', hv', hok' hok⟩

/-- Saving keeps it. -/
theorem keepsSync_saved (v : ClientView) : KeepsSync.rel v v.saved := by
  intro hok
  rw [ClientView.saved]
  split <;> exact hok

/-- What `_start` needs of a client that wants to sync: it is not deleted, the homeserver gives
    it a filter, and nothing but an `Exception` interrupts it once it syncs. -/
structure Startable (env : ClientStartEnv) (v : ClientView) : Prop where
  cached  : v.row.sync = true → v.cached = true
  filter  : v.row.sync = true → v.row.filterId = "" → env.createFilter ≠ .ok ""
  profile : v.row.sync = true → ∀ e, env.profile = .error e → e.isException = true

/-- The start comes as far as to bring the client up. -/
structure Starts (env : ClientStartEnv) (v : ClientView) : Prop where
  enabled  : v.row.enabled = true
  stopped  : v.started = false
  versions : env.versions = none
  whoami   : ∃ me, env.whoami = .ok me ∧ me.userId = v.id ∧ otherDevice me v.row.deviceId = false

/-- In the middle of a start: not started yet, and `R` holds of the view. -/
def Mid (c : Ref) (sync : Bool) (R : ClientView → Prop) (w : World L) : Prop :=
  ∃ v, Sees c v w ∧ v.row.sync = sync ∧ v.started = false ∧ (sync = true → v.cached = true) ∧ R v

section Start

variable {b : Bool} {R R' : ClientView → Prop} {env : ClientStartEnv}

/-- What holds in the middle of a start may be weakened. -/
theorem Mid.imp (h : Mid c b R w) (hR : ∀ v, R v → R' v) : Mid c b R' w := by
  obtain ⟨v, hv, hb, hs, hc, hr⟩ := h
  exact ⟨v, hv, hb, hs, hc, hR v hr⟩

/-- A client that does not sync may stop in the middle. -/
theorem Mid.fine (h : Mid c b (fun v => v.syncing = none) w) : Fine c w := by
  obtain ⟨v, hv, -, -, -, hnone⟩ := h
  exact ⟨v, hv, syncOk_of_none hnone⟩

/-- It holds over what the client does not see. -/
theorem triple_mid_of_unseen {α : Type} {m : Action L α} (hm : Keeps (Unseen L c) m) :
    Triple (Mid c b R) m (fun _ => Mid c b R) (Mid c b R) :=
  hm.triple fun _ _ h ⟨v, hv, hr⟩ => ⟨v, h v hv, hr⟩

/-- Before the sync: nothing syncs, and `filter` is not empty if it comes to a sync. -/
def NotYet (b : Bool) (filter : Except PyExc String) (v : ClientView) : Prop :=
  v.syncing = none ∧ (b = true → v.row.filterId = "" → filter ≠ .ok "")

/-- … and there is a filter. -/
def Filtered (b : Bool) (v : ClientView) : Prop :=
  v.syncing = none ∧ (b = true → v.row.filterId ≠ "")

/-- A sync has been wanted, and has a filter. -/
def Synced (b : Bool) (v : ClientView) : Prop := ∀ f, v.syncing = some f → b = true ∧ f ≠ ""

/-- After the filter has been made there is one, or nothing syncs. -/
theorem triple_createFilter (filter : Except PyExc String) :
    Triple (Mid c b (NotYet b filter)) (createFilter c filter : Action L Unit)
      (fun _ => Mid c b (Filtered b)) (Mid c b fun v => v.syncing = none) := by
  rintro w ⟨v, hv, hb, hs, hc, hnone, hfilter⟩
  have hrow : (w.clients.get c).row.filterId = v.row.filterId :=
    congrArg ClientRow.filterId hv.row
  by_cases hempty : v.row.filterId = ""
  · rw [createFilter, exec_get_bind, when, hrow, if_pos hempty]
    cases filter with
    | error e => exact ⟨v, hv, hb, hs, hc, hnone⟩
    | ok f =>
      let v' : ClientView := { v with row := { v.row with filterId := f } }
      have hne : b = true → f ≠ "" := fun hb hf => hfilter hb hempty (by rw [hf])
      have hset {E : World L → Prop} : Triple (Sees c v)
          (setClientRow c fun row => { row with filterId := f }) (fun _ => Sees c v') E :=
        triple_setRow fun row => { row with filterId := f }
      by_cases hnull : v'.stored.isSome = true → v'.row.notNull = true
      · refine ((hset.bind fun _ => triple_update hnull).post (fun _ w' hw' => ?_)
          fun _ h => h) w hv
        refine ⟨_, hw', ?_⟩
        rw [ClientView.saved]
        split <;> exact ⟨hb, hs, hc, hnone, hne⟩
      · -- the row is refused, and the new filter stays in memory only
        rw [Classical.not_imp, Bool.not_eq_true] at hnull
        refine ((hset.bind fun _ => triple_update_null hnull.1 hnull.2).post
          (fun _ _ h => h.elim) fun w' hw' => ?_) w hv
        exact ⟨_, hw', hb, hs, hc, hnone⟩
  · rw [createFilter, exec_get_bind, when, hrow, if_neg hempty]
    exact ⟨v, hv, hb, hs, hc, hnone, fun _ => hempty⟩

/-- So the client syncs with it. -/
theorem triple_startSync_mid {E : World L → Prop} :
    Triple (Mid c b (Filtered b)) (startSync c : Action L Unit)
      (fun _ => Mid c b (Synced b)) E := by
  rintro w ⟨v, hv, hb, hs, hc, hnone, hfilter⟩
  refine (triple_startSync.post (fun _ w' hw' => ?_) fun _ h => h) w hv
  refine ⟨_, hw', hb, hs, hc, fun f hf => ?_⟩
  replace hf : (if v.row.sync = true then some v.row.filterId else v.syncing) = some f := hf
  rw [hb] at hf
  cases b with
  | true =>
    rw [if_pos rfl, Option.some.injEq] at hf
    exact ⟨rfl, hf ▸ hfilter rfl⟩
  | false =>
    rw [if_neg Bool.false_ne_true, hnone] at hf
    cases hf

/-- While it syncs, only an `Exception` comes from the profile, and that is logged. -/
theorem triple_updateRemoteProfile {profile : ProfileAnswer}
    (h : b = true → ∀ e, profile = .error e → e.isException = true) :
    Triple (Mid c b (Synced b)) (updateRemoteProfile c profile : Action L Unit)
      (fun _ => Mid c b (Synced b)) (Fine c) := by
  intro w hw
  have hrun := triple_mid_of_unseen (unseen_updateRemoteProfile profile) w hw
  rcases hr : (updateRemoteProfile c profile : Action L Unit).exec w with ⟨e | _, w'⟩ <;>
    rw [hr] at hrun
  · cases b with
    | false =>
      -- it raised, but there is no sync
      refine Mid.fine (hrun.imp fun v hv => ?_)
      cases hsync : v.syncing with
      | none => rfl
      | some f => exact absurd (hv f hsync).1 Bool.false_ne_true
    | true =>
      have hreturns : Returns (updateRemoteProfile c profile : Action L Unit) := by
        refine raises_bind (raises_attempt (raises_outcome fun e he hexc => ?_)) fun r => ?_
        · rw [h rfl e he] at hexc
          cases hexc
        · cases r with
          | ok p => exact raises_modify _
          | error e => exact raises_pure ()
      obtain ⟨a, hok⟩ := hreturns.exists_ok w
      rw [hr] at hok
      cases hok
  · exact hrun

/-- **Bringing a client up.** -/
theorem triple_bringUp (hprofile : b = true → ∀ e, env.profile = .error e → e.isException = true) :
    Triple (Mid c b (NotYet b env.createFilter)) (bringUp S c env) (fun _ => Fine c) (Fine c) := by
  -- requests leave the client between its filter and its sync as it is
  have hraise {x : Option PyExc} {p : Prop} [Decidable p] :
      Triple (Mid c b (Filtered b)) (when p (raiseIf x) : Action L Unit)
        (fun _ => Mid c b (Filtered b)) (Fine c) := by
    refine (triple_mid_of_unseen (keeps_when (keeps_raiseIf x))).post (fun _ _ h => h) fun w h => ?_
    exact (h.imp fun v hv => hv.1).fine
  have hcrypto {p : Prop} [Decidable p] :
      Triple (Mid c b (Filtered b)) (when p (startCrypto c env.crypto) : Action L Unit)
        (fun _ => Mid c b (Filtered b)) (Fine c) := by
    refine (triple_mid_of_unseen (keeps_when (unseen_startCrypto _))).post (fun _ _ h => h)
      fun w h => ?_
    exact (h.imp fun v hv => hv.1).fine
  -- `started` is set when the sync has its filter
  have hstarted : Triple (Mid c b (Synced b))
      (setClient c fun cl => { cl with started := true } : Action L Unit) (fun _ => Fine c)
      (Fine c) := by
    rintro w ⟨v, hv, hb, -, hc, hsync⟩
    have hset := triple_setStarted (E := Fine c) true w hv
    refine ⟨_, hset, fun f hf => ?_⟩
    obtain ⟨rfl, hf⟩ := hsync f hf
    exact ⟨rfl, hb, hf, hc rfl⟩
  refine Triple.bind ((triple_createFilter env.createFilter).post (fun _ _ h => h)
    fun _ h => h.fine)
    fun _ => triple_read fun w _ => hraise.bind fun _ => hraise.bind fun _ => hcrypto.bind fun _ =>
    triple_startSync_mid.bind fun _ => (triple_updateRemoteProfile hprofile).bind fun _ =>
    hstarted.bind fun _ => ?_
  intro w hw
  have hfine := fine_of_seen (seen_of_unseen (unseen_startPlugins (S := S) env.plugins)) hw
  rcases hr : (startPlugins S c env.plugins).exec w with ⟨e | _, w'⟩ <;> rw [hr] at hfine <;>
    exact hfine

/-- A client may be disabled. -/
theorem fine_disable (h : Fine c w) : Fine c ((disable c : Action L Unit).exec w).2 :=
  fine_of_seen (keeps_bind (seen_setRow fun _ hok => hok) fun _ =>
    seen_update keepsSync_saved) h

/-- The first requests of `_start` change nothing here. -/
theorem exec_firstRequests (env : ClientStartEnv) (w : World L) :
    let requests : Action L (Except PyExc Whoami) := attempt PyExc.isException do
      raiseIf env.versions
      outcome env.whoami
    (∃ e, requests.exec w = (.error e, w)) ∨ (∃ e, requests.exec w = (.ok (.error e), w)) ∨
      ∃ me, env.versions = none ∧ env.whoami = .ok me ∧ requests.exec w = (.ok (.ok me), w) := by
  intro requests
  have hfail {e : PyExc} (h : (do raiseIf env.versions; outcome env.whoami :
      Action L Whoami).exec w = (.error e, w)) :
      (∃ e, requests.exec w = (.error e, w)) ∨ ∃ e, requests.exec w = (.ok (.error e), w) := by
    by_cases he : PyExc.isException e = true
    · refine .inr ⟨e, ?_⟩
      rw [exec_attempt, h]
      simp only [he, if_true]
    · refine .inl ⟨e, ?_⟩
      rw [exec_attempt, h]
      simp only [he, Bool.false_eq_true, if_false]
  cases hversions : env.versions with
  | some e => exact (hfail (by rw [hversions]; rfl)).imp_right .inl
  | none =>
    cases hwhoami : env.whoami with
    | error e => exact (hfail (by rw [hversions, hwhoami]; rfl)).imp_right .inl
    | ok me =>
      refine .inr (.inr ⟨me, rfl, rfl, ?_⟩)
      rw [exec_attempt, hversions, hwhoami]
      rfl

/-- **Start.** -/
theorem fine_start (hv : Sees c v w) (hok : SyncOk v) (tryN : Nat)
    (hstart : Starts env v → Startable env v) : Fine c ((start S c tryN env).exec w).2 := by
  have hsame : Fine c w := ⟨v, hv, hok⟩
  -- the handler of `start` only logs
  suffices h : Fine c ((tryStart S c tryN env).exec w).2 by
    have hattempt := exec_attempt_snd PyExc.isException (tryStart S c tryN env) w
    rw [start, exec_bind]
    rcases hr : (attempt PyExc.isException (tryStart S c tryN env)).exec w with ⟨e | _, w'⟩ <;>
      rw [hr] at hattempt <;> exact hattempt ▸ h
  rw [tryStart, exec_get_bind]
  dsimp only
  split
  · exact hsame
  split
  · exact hsame
  next henabled hstarted =>
  rw [hv.row] at henabled
  rw [hv.started] at hstarted
  rw [exec_bind]
  rcases exec_firstRequests env w with ⟨e, hr⟩ | ⟨e, hr⟩ | ⟨me, hversions, hwhoami, hr⟩ <;> rw [hr]
  · exact hsame
  · -- the homeserver did not answer
    show Fine c ((startFailed c tryN e : Action L Unit).exec w).2
    rw [startFailed]
    split
    · exact fine_disable hsame
    split
    · exact fine_disable hsame
    · let noted (cl : Client) : Client := { cl with retries := cl.retries ++ [tryN + 1] }
      exact hsame.of_unseen (unseen_setClient (f := noted) c (fun _ => rfl) (fun _ => rfl)
        (fun _ => rfl) (fun _ => rfl) w)
  · dsimp only
    split
    · exact fine_disable hsame
    split
    · exact fine_disable hsame
    next hid hdevice =>
    rw [hv.id, not_not] at hid
    rw [hv.row, Bool.not_eq_true] at hdevice
    have hstopped : v.started = false := by simpa using hstarted
    -- a start that gets here brings the sync up, from a client that has none
    have hready := hstart
      ⟨by simpa using henabled, hstopped, hversions, me, hwhoami, hid, hdevice⟩
    have hnone : v.syncing = none := by
      cases hsync : v.syncing with
      | none => rfl
      | some f => exact absurd (hok f hsync).1 (by rw [hstopped]; exact Bool.false_ne_true)
    exact (triple_bringUp hready.profile).final (R := Fine c)
      ⟨v, hv, rfl, hstopped, hready.cached, hnone, hready.filter⟩

end Start

/-! ### Stop -/

/-- A step to a view that is all right leaves a client fine. -/
theorem triple_fine {α : Type} {m : Action L α} {v' : ClientView} {E : World L → Prop}
    (hm : Triple (Sees c v) m (fun _ => Sees c v') E) (hok : SyncOk v') :
    Triple (Sees c v) m (fun _ => Fine c) E := hm.post (fun _ _ h => ⟨v', h, hok⟩) fun _ h => h

/-- The plugins that run with the client raise only `Exception`s when they stop. -/
def Polite (env : Ref → StopEnv) (c : Ref) (w : World L) : Prop :=
  ∀ i ∈ (w.clients.get c).references.elems, (w.instances.get i).started = true →
    Proper (env i).preStop.toList ∧ Proper (env i).stop.toList ∧
      Proper (env i).stopDatabase.toList

/-- Polite plugins stop without an exception. -/
theorem stopPlugins_ok {env : Ref → StopEnv} (h : Polite env c w) :
    ∃ w', (stopPlugins c env : Action L Unit).exec w = (.ok (), w') := by
  have hreturns : Returns (gather (((w.clients.get c).references.elems.filter fun i =>
      (w.instances.get i).started).map fun i =>
        (PluginInstance.stop i (env i) : Action L Unit))) := by
    refine raises_gather fun m hm => ?_
    obtain ⟨i, hi, rfl⟩ := List.mem_map.mp hm
    obtain ⟨hi, hstarted⟩ := List.mem_filter.mp hi
    obtain ⟨hpreStop, hstop, hdatabase⟩ := h i hi hstarted
    exact PluginInstance.returns_stop hpreStop hstop hdatabase
  obtain ⟨_, hok⟩ := hreturns.exists_ok w
  exact ⟨_, Prod.ext hok rfl⟩

/-- **Stop.**  Unless a plugin interrupts it, the client no longer syncs. -/
theorem sees_stop (S : Setup L) (hv : Sees c v w) (hstarted : v.started = true)
    (env : Ref → StopEnv) :
    ∃ r w', (stop c env : Action L Unit).exec w = (r, w') ∧
      (¬ Polite env c w ∧ Sees c { v with started := false } w' ∨
        r = .ok () ∧ Sees c { v with started := false, syncing := none } w') := by
  let v₁ : ClientView := { v with started := false }
  let stopped (cl : Client) : Client := { cl with started := false }
  let w₁ : World L := { w with clients := w.clients.modify c stopped }
  have hv₁ : Sees c v₁ w₁ := triple_setStarted (E := fun _ => False) false w hv
  have hplugins := unseen_stopPlugins S env w₁ v₁ hv₁
  have hstop : (stop c env : Action L Unit).exec w =
      ((do stopPlugins c env; stopSync c) : Action L Unit).exec w₁ := by
    rw [stop, exec_get_bind, when, if_pos (hv.started.trans hstarted)]
    rfl
  rw [hstop]
  by_cases hpolite : Polite env c w
  · have hpolite₁ : Polite env c w₁ := fun i hi => by
      have href : (w₁.clients.get c).references = (w.clients.get c).references :=
        Store.view_modify w.clients c stopped Client.references (fun _ => rfl) c
      rw [href] at hi
      exact hpolite i hi
    obtain ⟨w₂, hr⟩ := stopPlugins_ok hpolite₁
    rw [hr] at hplugins
    rw [exec_bind_ok hr]
    exact ⟨_, _, rfl, .inr ⟨rfl, triple_stopSync (E := fun _ => False) w₂ hplugins⟩⟩
  · rcases hr : (stopPlugins c env : Action L Unit).exec w₁ with ⟨e | _, w₂⟩ <;> rw [hr] at hplugins
    · exact ⟨_, _, exec_bind_error hr, .inl ⟨hpolite, hplugins⟩⟩
    · rw [exec_bind_ok hr]
      exact ⟨_, _, rfl, .inr ⟨rfl, triple_stopSync (E := fun _ => False) w₂ hplugins⟩⟩

/-- So a client stops and its sync with it. -/
theorem fine_stop (S : Setup L) (hv : Sees c v w) (hok : SyncOk v) (env : Ref → StopEnv)
    (hpolite : v.started = true → v.syncing ≠ none → Polite env c w) :
    Fine c ((stop c env : Action L Unit).exec w).2 := by
  by_cases hstarted : v.started = true
  · obtain ⟨r, w', hr, ⟨hnot, hv'⟩ | ⟨-, hv'⟩⟩ := sees_stop S hv hstarted env <;> rw [hr]
    · refine ⟨_, hv', syncOk_of_none ?_⟩
      by_contra hsync
      exact hnot (hpolite hstarted hsync)
    · exact ⟨_, hv', syncOk_of_none rfl⟩
  · rw [stop, exec_get_bind, when, if_neg (by rw [hv.started]; exact hstarted)]
    exact ⟨v, hv, hok⟩

/-! ### Updates -/

/-- A client that is to sync begins with the filter that it has. -/
theorem fine_updateSync (hv : Sees c v w) (hok : SyncOk v) (sync : Option Bool) (save : Bool)
    (hfilter : sync = some true → v.row.sync = false → v.started = true →
      v.row.filterId ≠ "" ∧ v.cached = true) :
    Fine c ((updateSync c sync save : Action L Unit).exec w).2 := by
  rw [updateSync, exec_get_bind]
  cases sync with
  | none => exact ⟨v, hv, hok⟩
  | some b =>
    dsimp only
    by_cases hsame : (w.clients.get c).row.sync = b
    · rw [if_pos hsame]
      exact ⟨v, hv, hok⟩
    rw [if_neg hsame]
    let v₁ : ClientView := { v with row := { v.row with sync := b } }
    have hset : Triple (Sees c v) (setClientRow c fun row => { row with sync := b } : Action L Unit)
        (fun _ => Sees c v₁) (Fine c) := triple_setRow fun row => { row with sync := b }
    have hsync : Triple (Sees c v₁) (when ((w.clients.get c).started = true)
        (if b then startSync c else stopSync c) : Action L Unit) (fun _ => Fine c) (Fine c) := by
      intro w₁ hv₁
      rw [hv.started, when]
      cases hstarted : v.started with
      | false =>
        -- nothing runs yet
        refine ⟨v₁, hv₁, syncOk_of_none ?_⟩
        cases hsyncing : v.syncing with
        | none => rfl
        | some f =>
          have hrun := (hok f hsyncing).1
          rw [hstarted] at hrun
          cases hrun
      | true =>
        rw [if_pos rfl]
        cases b with
        | false =>
          rw [if_neg Bool.false_ne_true]
          exact triple_fine (E := Fine c) triple_stopSync (syncOk_of_none rfl) w₁ hv₁
        | true =>
          rw [if_pos rfl]
          rw [hv.row, Bool.not_eq_true] at hsame
          obtain ⟨hne, hcached⟩ := hfilter rfl hsame hstarted
          refine triple_fine (E := Fine c) triple_startSync (fun f hf => ?_) w₁ hv₁
          obtain rfl : v.row.filterId = f := Option.some.inj hf
          exact ⟨hstarted, rfl, hne, hcached⟩
    have hsave : Triple (Fine c) (when (save = true) (update c) : Action L Unit) (fun _ => Fine c)
        (Fine c) := by
      intro w₂ hfine
      have hfine' :=
        fine_of_seen (keeps_when (c := save = true) (seen_update keepsSync_saved)) hfine
      rcases hr : (when (save = true) (update c) : Action L Unit).exec w₂ with ⟨e | _, w₃⟩ <;>
        rw [hr] at hfine' <;> exact hfine'
    exact (hset.bind fun _ => hsync.bind fun _ => hsave).final hv

/-! ### Access details and the cache -/

/-- The call makes the client act through a new Matrix client, and returns. -/
structure Switches (S : Setup L) (token homeserver deviceId : Option String) (env : AccessEnv)
    (v : ClientView) : Prop where
  asks   : Asks token homeserver deviceId v
  whoami : refusal env.whoami (deviceId.getD v.row.deviceId) v = none
  crypto : cryptoFailure S env.crypto (deviceId.getD v.row.deviceId) = none

/-- **Access details.** -/
theorem fine_updateAccessDetails (hv : Sees c v w) (hok : SyncOk v)
    (token homeserver deviceId : Option String) (env : AccessEnv)
    (hready : Switches S token homeserver deviceId env v → v.row.sync = true →
      v.started = true ∧ v.row.filterId ≠ "" ∧ v.cached = true) :
    Fine c ((updateAccessDetails S c token homeserver deviceId env).exec w).2 := by
  obtain ⟨r, w', v', hr, hv', hout⟩ := exec_updateAccessDetails (S := S) hv token homeserver
    deviceId env
  rw [hr]
  refine ⟨v', hv', ?_⟩
  cases hout with
  | same _ => exact hok
  | refused _ _ => exact hok
  | unencrypted _ _ _ _ => exact syncOk_of_none rfl
  | switched hasks hnone hcrypto _ =>
    intro f hf
    cases hsync : v.row.sync with
    | false =>
      replace hf : (if v.row.sync = true then some v.row.filterId else none) = some f := hf
      rw [hsync, if_neg Bool.false_ne_true] at hf
      cases hf
    | true =>
      replace hf : (if v.row.sync = true then some v.row.filterId else none) = some f := hf
      rw [hsync, if_pos rfl, Option.some.injEq] at hf
      obtain ⟨hstarted, hfilter, hcached⟩ := hready ⟨hasks, hnone, hcrypto⟩ hsync
      exact ⟨hstarted, hsync, hf ▸ hfilter, hcached⟩

/-- **Clearing the cache.** -/
theorem fine_clearCache (hv : Sees c v w)
    (hrefused : v.row.sync = true → v.stored.isSome = true ∧ v.row.notNull = false) :
    Fine c ((clearCache c : Action L Unit).exec w).2 := by
  let v₁ : ClientView := { v with syncing := none }
  let v₂ : ClientView := { v₁ with row := { v₁.row with filterId := "", nextBatch := "" } }
  have hset {E : World L → Prop} : Triple (Sees c v₁) (setClientRow c fun row =>
      { row with filterId := "", nextBatch := "" } : Action L Unit) (fun _ => Sees c v₂) E :=
    triple_setRow fun row => { row with filterId := "", nextBatch := "" }
  have hnotSaved (hstored : v₂.stored.isSome = true) (hnull : v₂.row.notNull = false) :
      Triple (Sees c v₂) (do update c; startSync c : Action L Unit) (fun _ => Fine c) (Fine c) := by
    refine Triple.bind (Q := fun _ _ => False) ?_ fun _ _ h => h.elim
    exact (triple_update_null hstored hnull).post (fun _ _ h => h) fun _ h =>
      ⟨v₂, h, syncOk_of_none rfl⟩
  have hrest : Triple (Sees c v₂) (do update c; startSync c : Action L Unit) (fun _ => Fine c)
      (Fine c) := by
    cases hsync : v.row.sync with
    | true =>
      -- the database refuses the row, so the sync does not start again
      obtain ⟨hstored, hnull⟩ := hrefused hsync
      exact hnotSaved hstored hnull
    | false =>
      by_cases hnull : v₂.stored.isSome = true → v₂.row.notNull = true
      · refine (triple_update hnull).bind fun _ =>
          triple_fine triple_startSync (syncOk_of_none ?_)
        have hrow : v₂.saved.row.sync = false := by rw [saved_row, hsync]
        show (if v₂.saved.row.sync = true then some v₂.saved.row.filterId
          else v₂.saved.syncing) = none
        rw [if_neg (by rw [hrow]; exact Bool.false_ne_true), saved_syncing]
      · rw [Classical.not_imp, Bool.not_eq_true] at hnull
        exact hnotSaved hnull.1 hnull.2
  exact (triple_stopSync.bind fun _ => hset.bind fun _ => hrest).final hv

/-! ### Deletion -/

/-- A client that does not sync is taken out of the cache. -/
theorem calm_forget (hw : Calm (fun _ => True) w) (hv : Sees c v w) (hnone : v.syncing = none)
    (hcached : v.cached = true) :
    Calm (fun _ => True)
      { w with clientCache := Function.update w.clientCache (w.clients.get c).id none } where
  sync d hd _ := by
    obtain ⟨u, hu, hok⟩ := hw.sync d hd trivial
    by_cases hdc : d = c
    · subst hdc
      refine ⟨{ v with cached := false }, .intro hv.lt hv.clientLt hv.id hv.row hv.started hv.client
        hv.syncing hv.stored ?_, syncOk_of_none hnone⟩
      show (Function.update w.clientCache (w.clients.get d).id none v.id == some d) = false
      rw [hv.id, Function.update_self]
      rfl
    · refine ⟨u, .intro hu.lt hu.clientLt hu.id hu.row hu.started hu.client hu.syncing hu.stored ?_,
        hok⟩
      rw [← hu.cached]
      show (Function.update w.clientCache (w.clients.get c).id none u.id == some d) = _
      -- the cache had the other client there, if any
      by_cases hid : u.id = (w.clients.get c).id
      · have hother : w.clientCache u.id = some c := by
          have hc := hv.cached
          rw [hcached, beq_iff_eq, ← hv.id, ← hid] at hc
          exact hc
        rw [hid, Function.update_self, ← hid, hother]
        simpa using fun h => hdc h.symm
      · rw [Function.update_of_ne hid]
  lt := hw.lt
  apart := hw.apart
  cache u d hu := by
    replace hu : Function.update w.clientCache (w.clients.get c).id none u = some d := hu
    by_cases hid : u = (w.clients.get c).id
    · rw [hid, Function.update_self] at hu
      cases hu
    · rw [Function.update_of_ne hid] at hu
      exact hw.cache u d hu

/-- What is left of a method of `q` is `q` itself. -/
theorem calm_method {α : Type} {m : Action L α} (hw : Calm (fun _ => True) w)
    (hq : q < w.clients.next) (hm : Keeps (Elsewhere L q) m) (hfine : Fine q (m.exec w).2) :
    Calm (fun _ => True) (m.exec w).2 :=
  ((hm w ⟨hw.mono fun _ _ => trivial, hq⟩).1).join hfine

/-- A client that may be deleted has been stopped. -/
theorem calm_deletable (hw : Calm (fun _ => True) w) (u : String) (env : Ref → StopEnv) :
    ∃ r w', (deletable S u env).exec w = (.ok r, w') ∧ Calm (fun _ => True) w' ∧
      ∀ c, r = .ok c → ∃ v, Sees c v w' ∧ v.syncing = none ∧ v.cached = true := by
  have hget := calms_get (S := S) u none none none w hw
  obtain ⟨r, w₁, he, hcache⟩ := exec_get_cached (S := S) u w
  rw [he] at hget
  rw [deletable, exec_bind_ok he]
  cases r with
  | none => exact ⟨_, _, rfl, hget, fun c hc => by cases hc⟩
  | some c =>
    dsimp only
    rw [exec_get_bind]
    -- a client that instances use is not deleted
    by_cases hused : 0 < (w₁.clients.get c).references.length
    · rw [if_pos hused]
      exact ⟨_, _, rfl, hget, fun c hc => by cases hc⟩
    rw [if_neg hused]
    obtain ⟨hlt, hid⟩ := hget.cache u c (hcache c rfl)
    obtain ⟨v, hv, hok⟩ := hget.sync c hlt trivial
    have hcached : v.cached = true := by
      rw [← hv.cached, ← hv.id, hid, hcache c rfl]
      exact beq_self_eq_true _
    -- without instances there is no plugin whose stop could raise
    by_cases hstarted : v.started = true
    · have hpolite : Polite env c w₁ := fun i hi => by
        rw [List.length_eq_zero_iff.mp (Nat.eq_zero_of_not_pos hused)] at hi
        cases hi
      obtain ⟨r, w₂, hr, ⟨hnot, -⟩ | ⟨rfl, hv₂⟩⟩ := sees_stop S hv hstarted env
      · exact absurd hpolite hnot
      have hcalm : Calm (fun _ => True) w₂ := by
        have hstop := calm_method hget hlt ((admits_elsewhere (S := S)).stop env)
          (fine_stop S hv hok env fun _ _ => hpolite)
        rw [hr] at hstop
        exact hstop
      rw [when, if_pos (hv.started.trans hstarted), exec_bind_ok hr]
      refine ⟨_, _, rfl, hcalm, ?_⟩
      rintro _ ⟨⟩
      exact ⟨_, hv₂, rfl, hcached⟩
    · rw [when, if_neg (by rw [hv.started]; exact hstarted)]
      refine ⟨_, _, rfl, hget, ?_⟩
      rintro _ ⟨⟩
      refine ⟨v, hv, ?_, hcached⟩
      cases hsync : v.syncing with
      | none => rfl
      | some f => exact absurd (hok f hsync).1 hstarted

/-- **Deletion.** -/
theorem calm_deleteClient (hw : Calm (fun _ => True) w) (u : String) (env : Ref → StopEnv)
    (refused : Option PyExc) : Calm (fun _ => True) ((deleteClient S u env refused).exec w).2 := by
  obtain ⟨r, w', hr, hcalm, hstopped⟩ := calm_deletable (S := S) hw u env
  rw [deleteClient, exec_bind_ok hr]
  cases r with
  | error r => exact hcalm
  | ok c =>
    obtain ⟨v, hv, hnone, hcached⟩ := hstopped c rfl
    have hforget := calm_forget hcalm hv hnone hcached
    cases refused with
    | some e => exact hforget
    | none => exact (same_rows _).calm hforget

/-! ### Runs -/

namespace Op

/-- The call starts no sync that it should not, and leaves none behind. -/
def SyncSafe (S : Setup L) (w : World L) : Op → Prop
  | .start c _ env => Starts env (view c w) → Startable env (view c w)
  | .stop c env    => (view c w).started = true → (view c w).syncing ≠ none → Polite env c w
  | .updateStarted c started stopEnv startEnv =>
    (started = some true → Starts startEnv (view c w) → Startable startEnv (view c w)) ∧
    (started = some false → (view c w).started = true → (view c w).syncing ≠ none →
      Polite stopEnv c w)
  | .updateSync c sync _ =>
    sync = some true → (view c w).row.sync = false → (view c w).started = true →
      (view c w).row.filterId ≠ "" ∧ (view c w).cached = true
  | .updateAccessDetails c token homeserver deviceId env =>
    Switches S token homeserver deviceId env (view c w) → (view c w).row.sync = true →
      (view c w).started = true ∧ (view c w).row.filterId ≠ "" ∧ (view c w).cached = true
  | .clearCache c =>
    (view c w).row.sync = true →
      (view c w).stored.isSome = true ∧ (view c w).row.notNull = false
  | _ => True

end Op

/-- **Step.**  Such an operation keeps the clients calm. -/
theorem calm_exec (hw : Calm (fun _ => True) w) {op : Op} (hheld : op.Held w)
    (hsafe : op.SyncSafe S w) : Calm (fun _ => True) (op.exec S w) := by
  have hsees {q : Ref} (hq : q < w.clients.next) : Sees q (view q w) w ∧ SyncOk (view q w) := by
    obtain ⟨v, hv, hok⟩ := hw.sync q hq trivial
    rw [hv.view]
    exact ⟨hv, hok⟩
  have hfine {α : Type} {m : Action L α} {q : Ref} (hq : q < w.clients.next)
      (hm : Keeps (Seen L q KeepsSync) m) : Fine q (m.exec w).2 :=
    fine_of_seen hm (hw.sync q hq trivial)
  -- an operation of one client leaves the others calm; what it does to its own is `Fine`
  cases op with
  | get u h t d => exact calms_get u h t d w hw
  | start c n env =>
    obtain ⟨hv, hok⟩ := hsees (hheld c rfl)
    exact calm_method hw (hheld c rfl) (admits_elsewhere.start n env) (fine_start hv hok n hsafe)
  | stop c env =>
    obtain ⟨hv, hok⟩ := hsees (hheld c rfl)
    exact calm_method hw (hheld c rfl) ((admits_elsewhere (S := S)).stop env)
      (fine_stop S hv hok env hsafe)
  | updateStarted c started stopEnv startEnv =>
    obtain ⟨hv, hok⟩ := hsees (hheld c rfl)
    refine calm_method hw (hheld c rfl) (admits_elsewhere.updateStarted started stopEnv startEnv) ?_
    rw [updateStarted, exec_get_bind]
    cases started with
    | none => exact ⟨_, hv, hok⟩
    | some b =>
      dsimp only
      split
      · exact ⟨_, hv, hok⟩
      cases b with
      | true => exact fine_start hv hok 0 (hsafe.1 rfl)
      | false => exact fine_stop S hv hok stopEnv (hsafe.2 rfl)
  | updateEnabled c e save =>
    exact calm_method hw (hheld c rfl) ((admits_elsewhere (S := S)).updateEnabled e save)
      (hfine (hheld c rfl) (seen_updateEnabled keepsSync_saved e save fun _ _ hok => hok))
  | updateDisplayname c x e p save =>
    exact calm_method hw (hheld c rfl) ((admits_elsewhere (S := S)).updateProfile displayname
      (fun _ _ => rfl) (fun _ _ => rfl) x e p save)
      (hfine (hheld c rfl) (seen_updateProfile keepsSync_saved _ x e p save fun _ _ hok => hok))
  | updateAvatarUrl c x e p save =>
    exact calm_method hw (hheld c rfl) ((admits_elsewhere (S := S)).updateProfile avatarUrl
      (fun _ _ => rfl) (fun _ _ => rfl) x e p save)
      (hfine (hheld c rfl) (seen_updateProfile keepsSync_saved _ x e p save fun _ _ hok => hok))
  | updateSync c sync save =>
    obtain ⟨hv, hok⟩ := hsees (hheld c rfl)
    exact calm_method hw (hheld c rfl) ((admits_elsewhere (S := S)).updateSync sync save)
      (fine_updateSync hv hok sync save hsafe)
  | updateAutojoin c b save =>
    exact calm_method hw (hheld c rfl) ((admits_elsewhere (S := S)).updateAutojoin b save)
      (hfine (hheld c rfl) (seen_updateAutojoin keepsSync_saved b save fun _ _ hok => hok))
  | updateOnline c b save =>
    exact calm_method hw (hheld c rfl) ((admits_elsewhere (S := S)).updateOnline b save)
      (hfine (hheld c rfl) (seen_updateOnline keepsSync_saved b save fun _ _ hok => hok))
  | updateAccessDetails c t h d env =>
    obtain ⟨hv, hok⟩ := hsees (hheld c rfl)
    exact calm_method hw (hheld c rfl) (elsewhere_updateAccessDetails t h d env)
      (fine_updateAccessDetails hv hok t h d env hsafe)
  | clearCache c =>
    obtain ⟨hv, -⟩ := hsees (hheld c rfl)
    exact calm_method hw (hheld c rfl) (admits_elsewhere (S := S)).clearCache
      (fine_clearCache hv hsafe)
  | delete u env refused => exact calm_deleteClient hw u env refused

end Client

section Runs

variable {w₀ w : World L}

/-- The caller holds the object, and a call of a client starts no sync that it should not. -/
structure Call.SyncSafe (S : Setup L) (w : World L) (call : Call L) : Prop where
  held : call.Held w
  safe : ∀ op, call = .onClient op → op.SyncSafe S w

/-- At first no client exists. -/
theorem Client.calm_of_startup (h : PluginInstance.Startup w) : Calm (fun _ => True) w where
  sync c hc := by
    rw [h.clients] at hc
    exact absurd hc (Nat.not_lt_zero c)
  lt c hc := by
    rw [h.clients] at hc
    exact absurd hc (Nat.not_lt_zero c)
  apart c _ hc := by
    rw [h.clients] at hc
    exact absurd hc (Nat.not_lt_zero c)
  cache u c hc := by
    rw [h.clientCache] at hc
    cases hc

/-- **Who syncs, over whole runs.**  As long as no call starts a sync that it should not, a
    client that syncs is started, wants to, has a filter and is not deleted. -/
theorem syncOk_of_safe (h₀ : PluginInstance.Startup w₀)
    (h : Reach (Call.exec S) (Call.SyncSafe S) w₀ w) (c : Ref) (hc : c < w.clients.next) :
    (Client.view c w).SyncOk := by
  have hcalm : Client.Calm (fun _ => True) w := by
    refine h.invariant (Client.calm_of_startup h₀) fun w call hw hcall => ?_
    refine Client.calms_instances.exec call w (fun op hop hw => ?_) hw
    subst hop
    exact Client.calm_exec hw hcall.held (hcall.safe op rfl)
  obtain ⟨v, hv, hok⟩ := hcalm.sync c hc trivial
  rw [hv.view]
  exact hok

end Runs

namespace InstanceTest

open Client

/-- The homeserver confirms the client and has a filter for it. -/
def accepts : ClientStartEnv where
  whoami := .ok { userId := "@bot:example.com" }
  createFilter := .ok "1"

/-- Get the client and start it. -/
def running : World Unit :=
  Call.exec setup (.onClient (.updateStarted 0 (some true) (fun _ => {}) accepts))
    (Call.exec setup (.onClient (.get "@bot:example.com" none none none)) startup)

/-- The client of the witness syncs as it should. -/
theorem running_syncOk : (view 0 running).syncing = some "1" ∧ (view 0 running).SyncOk := by
  have hget : Reach (Call.exec setup) (Call.SyncSafe setup) startup
      (Call.exec setup (.onClient (.get "@bot:example.com" none none none)) startup) :=
    Reach.step (Call.onClient (Op.get "@bot:example.com" none none none)) .start
      ⟨by rintro i ⟨⟩, by rintro op ⟨⟩; trivial⟩
  have hstart : Reach (Call.exec setup) (Call.SyncSafe setup) startup running :=
    Reach.step (Call.onClient (Op.updateStarted 0 (some true) (fun _ => {}) accepts)) hget
      ⟨by rintro i ⟨⟩; decide +kernel, by
        rintro op ⟨⟩
        refine ⟨fun _ _ => ⟨fun _ => by decide +kernel, fun _ _ => by decide, ?_⟩, by simp⟩
        rintro _ e ⟨⟩⟩
  exact ⟨by decide +kernel, syncOk_of_safe startup_startup hstart 0 (by decide +kernel)⟩

/-- New access details for a client that is not started. -/
def otherToken : Call Unit :=
  .onClient (.updateAccessDetails 0 (some "other") (some "https://matrix.example.com") none
    { whoami := .ok { userId := "@bot:example.com" } })

/-- It syncs from then on, with no filter. -/
theorem stopped_syncs :
    ¬ ∀ w₀ : World Unit, PluginInstance.Startup w₀ → ∀ w,
      Reach (Call.exec setup) (fun w call => call.Held w) w₀ w →
        ∀ c, c < w.clients.next → (view c w).SyncOk := by
  intro h
  have hget : Reach (Call.exec setup) (fun w call => call.Held w) startup
      (Call.exec setup (.onClient (.get "@bot:example.com" none none none)) startup) :=
    Reach.step (Call.onClient (Op.get "@bot:example.com" none none none)) .start (by rintro i ⟨⟩)
  have hswitch := Reach.step otherToken hget (by rintro i ⟨⟩; decide +kernel)
  have hok := h startup startup_startup _ hswitch 0 (by decide +kernel) "" (by decide +kernel)
  exact absurd hok.1 (by decide +kernel)

end InstanceTest

end Maubot
