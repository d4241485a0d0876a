import Maubot.Instance.Outcomes
import Maubot.Instance.Cache
import Maubot.Management.Responses

namespace Maubot.Management

open Prog PluginInstance

/-!
# Management API — updating an instance

`_update_instance` of `management/api/instance.py`.

* `UpdateCorrect` — the request is fulfilled, or refused without a change;
* `Handled` — the requests that are; the others name a plugin type that does not exist, or
  stop the instance and change its type, which starts it again;
* `updateCorrect_iff_handled` — the two agree.
-/

variable {L : Type} (S : Setup L)

/-- The fields of the request body. -/
structure InstanceData where
  primaryUser : Option String := none
  id          : Option String := none
  enabled     : Option Bool := none
  config      : Option String := none
  started     : Option Bool := none
  type        : Option String := none

/-- What the stops, the starts and the plugin's `on_external_config_update` meet. -/
structure InstanceEnv where
  primaryUser : StopEnv × StartEnv := ({}, {})
  onUpdate    : Hook := {}
  started     : StopEnv × StartEnv := ({}, {})
  type        : StopEnv × StartEnv := ({}, {})

def updateInstance (i : Ref) (data : InstanceData) (env : InstanceEnv) : Action L Response := do
  if ← updatePrimaryUser S i data.primaryUser env.primaryUser then do
    updateId S i data.id
    updateEnabled i data.enabled
    updateConfig i data.config env.onUpdate
    updateStarted S i data.started env.started
    let _ ← updateType S i data.type env.type
    pure (Response.updated false)
  else pure Response.primaryUserNotFound

/-! ### The property -/

/-- Every key of the request holds. -/
structure Requested (data : InstanceData) (inst : PluginInstance) : Prop where
  primaryUser : ∀ u, data.primaryUser = some u → inst.primaryUser = u
  id          : ∀ n, data.id = some n → inst.id = S.lower n
  enabled     : ∀ e, data.enabled = some e → inst.enabled = e
  config      : ∀ c, data.config = some c → inst.configStr = c
  type        : ∀ t, data.type = some t → inst.type = t
  running     : data.started = some true → inst.enabled = true → inst.started = true
  stopped     : data.started = some false → inst.started = false

/-- A client or a plugin type that the request names does not exist. -/
def Missing (w : World L) (data : InstanceData) : Prop :=
  (∃ u, data.primaryUser = some u ∧ ¬ HasClient w u) ∨
    ∃ t, data.type = some t ∧ S.loaders.find w.loaders t = none

/-- An exception becomes a response with status 500. -/
def isError (r : Except PyExc Response) : Bool :=
  match r with
  | .ok resp => resp.isError
  | .error _ => true

/-- If the request is answered with the updated instance, every key of it holds; if it names
    something that does not exist, it is answered with an error and changes no field. -/
def UpdateCorrect (i : Ref) (data : InstanceData) (env : InstanceEnv) (w : World L) : Prop :=
  (((updateInstance S i data env).exec w).1 = .ok (Response.updated false) →
    Requested S data (((updateInstance S i data env).exec w).2.instances.get i)) ∧
  (Missing S w data → isError ((updateInstance S i data env).exec w).1 = true ∧
    ((updateInstance S i data env).exec w).2.instances.get i = w.instances.get i)

/-! ### The requests that are handled correctly -/

/-- The named client is another than the present one. -/
def ChangesUser (i : Ref) (data : InstanceData) (w : World L) : Prop :=
  ∃ u, data.primaryUser = some u ∧ u ≠ (w.instances.get i).primaryUser

/-- The database refuses the new id. -/
def RefusesId (i : Ref) (data : InstanceData) (w : World L) : Prop :=
  ∃ n, data.id = some n ∧ S.lower n ≠ (w.instances.get i).id ∧
    (w.instanceRows (w.instances.get i).id).isSome = true ∧
    (w.instanceRows (S.lower n)).isSome = true

/-- The request stops an instance that is (or becomes) enabled, and gives it another type. -/
def Restarts (i : Ref) (data : InstanceData) (w : World L) : Prop :=
  data.started = some false ∧ data.enabled.getD (w.instances.get i).enabled = true ∧
    ∃ t, data.type = some t ∧ t ≠ (w.instances.get i).type ∧
      (S.loaders.find w.loaders t).isSome = true

/-- Either the named client is new and does not exist; or the new id is refused before
    anything is changed, or nothing that is named is missing; and the request does not
    restart what it stops. -/
def Handled (i : Ref) (data : InstanceData) (w : World L) : Prop :=
  (∃ u, data.primaryUser = some u ∧ u ≠ (w.instances.get i).primaryUser ∧ ¬ HasClient w u) ∨
  ((Missing S w data → RefusesId S i data w ∧ ¬ ChangesUser i data w) ∧
    (Restarts S i data w → RefusesId S i data w))

/-! ### Calls in which starts and stops succeed -/

/-- No plugin rewrites its config. -/
structure InstanceEnv.KeepsConfig (env : InstanceEnv) : Prop where
  primaryUser : env.primaryUser.2.KeepsConfig
  onUpdate    : env.onUpdate.saves = []
  started     : env.started.2.KeepsConfig
  type        : env.type.2.KeepsConfig

/-- Clients and loaders are found under their own ids. -/
structure FoundById (w : World L) : Prop where
  clients : ∀ u c, w.clientCache u = some c → (w.clients.get c).id = u
  loaders : ∀ t l, S.loaders.find w.loaders t = some l → (metaOf S w l).id = t

variable {S} {i : Ref} {data : InstanceData} {env : InstanceEnv} {w w' : World L}

/-- The settings after the steps that follow `update_primary_user`, up to the type. -/
def InstanceData.apply (S : Setup L) (data : InstanceData) (s : Settings) : Settings :=
  { s with
    id := (data.id.map S.lower).getD s.id
    enabled := data.enabled.getD s.enabled
    configStr := data.config.getD s.configStr }

/-- The steps between `update_primary_user` and `update_type`. -/
def updateFields (S : Setup L) (i : Ref) (data : InstanceData) (env : InstanceEnv) :
    Action L Unit := do
  updateId S i data.id
  updateEnabled i data.enabled
  updateConfig i data.config env.onUpdate
  updateStarted S i data.started env.started

/-- The fields are set as the request says, and the instance started or stopped. -/
theorem achieves_updateFields (henv : env.KeepsConfig) :
    Achieves (updateFields S i data env) fun w _ w' => Changed S i (data.apply S) w w' ∧
      (data.started = some true → (w'.instances.get i).enabled = true →
        (w'.instances.get i).started = true) ∧
      (data.started = some false → (w'.instances.get i).started = false) := by
  have hstarted : Achieves (do
        updateConfig i data.config env.onUpdate
        updateStarted S i data.started env.started) fun w _ w' =>
      Changed S i (fun s => { s with configStr := data.config.getD s.configStr }) w w' ∧
        (data.started = some true → (w'.instances.get i).enabled = true →
          (w'.instances.get i).started = true) ∧
        (data.started = some false → (w'.instances.get i).started = false) := by
    refine (achieves_updateConfig (S := S) data.config henv.onUpdate).bind
      (fun _ => achieves_updateStarted data.started henv.started) ?_
    intro w _ v _ w' h h'
    have hen : (w'.instances.get i).enabled = (v.instances.get i).enabled :=
      congrArg Settings.enabled h'.1.settings
    exact ⟨h.trans h'.1.changed, fun hs he => h'.2.1 hs (hen ▸ he), h'.2.2⟩
  have henabled := (achieves_updateEnabled (S := S) (i := i) data.enabled).bind
    (fun _ => hstarted) (Q := fun w _ w' =>
      Changed S i (fun s => { s with
        enabled := data.enabled.getD s.enabled, configStr := data.config.getD s.configStr }) w w' ∧
        (data.started = some true → (w'.instances.get i).enabled = true →
          (w'.instances.get i).started = true) ∧
        (data.started = some false → (w'.instances.get i).started = false))
    fun _ _ _ _ _ h h' => ⟨h.trans h'.1, h'.2⟩
  exact (achieves_updateId data.id).bind (fun _ => henabled)
    fun _ _ _ _ _ h h' => ⟨h.trans h'.1, h'.2⟩

/-- What the call achieves if it returns: it refuses a client that does not exist, or every
    key holds but for a type that does not exist and a plugin that the new type restarts. -/
structure Achieved (S : Setup L) (i : Ref) (data : InstanceData) (w w' : World L) : Prop where
  primaryUser : ∀ u, data.primaryUser = some u → (w'.instances.get i).primaryUser = u
  hasClient   : ∀ u, data.primaryUser = some u → u ≠ (w.instances.get i).primaryUser → HasClient w u
  id          : ∀ n, data.id = some n → (w'.instances.get i).id = S.lower n
  enabled     : (w'.instances.get i).enabled = data.enabled.getD (w.instances.get i).enabled
  config      : ∀ c, data.config = some c → (w'.instances.get i).configStr = c
  type        : ∀ t, data.type = some t → t = (w.instances.get i).type ∨
    (S.loaders.find w.loaders t).isSome = true → (w'.instances.get i).type = t
  running     : data.started = some true → (w'.instances.get i).enabled = true →
    (w'.instances.get i).started = true
  stopped     : data.started = some false →
    ((w'.instances.get i).started = true ↔ Restarts S i data w)

/-- The handler updates the user, the fields and the type, in this order. -/
theorem updateInstance_eq : updateInstance S i data env = (do
    let found ← updatePrimaryUser S i data.primaryUser env.primaryUser
    if found then do
      updateFields S i data env
      let _ ← updateType S i data.type env.type
      pure (Response.updated false)
    else pure Response.primaryUserNotFound) := by
  simp only [updateInstance, updateFields, bind_assoc]

/-- The keys that are fields, of the settings that the steps leave. -/
theorem Achieved.of_settings {t : String}
    (hsettings : (w'.instances.get i).settings =
      { data.apply S { (w.instances.get i).settings with
          primaryUser := data.primaryUser.getD (w.instances.get i).primaryUser } with
        type := t })
    (hclient : ∀ u, data.primaryUser = some u → u ≠ (w.instances.get i).primaryUser → HasClient w u)
    (htype : ∀ t', data.type = some t' → t' = (w.instances.get i).type ∨
      (S.loaders.find w.loaders t').isSome = true → t = t')
    (hrunning : data.started = some true → (w'.instances.get i).enabled = true →
      (w'.instances.get i).started = true)
    (hstopped : data.started = some false →
      ((w'.instances.get i).started = true ↔ Restarts S i data w)) :
    Achieved S i data w w' where
  primaryUser u hu := (congrArg Settings.primaryUser hsettings).trans
    (by simp [InstanceData.apply, hu])
  hasClient := hclient
  id n hn := (congrArg Settings.id hsettings).trans (by simp [InstanceData.apply, hn])
  enabled := congrArg Settings.enabled hsettings
  config c hc := (congrArg Settings.configStr hsettings).trans (by simp [InstanceData.apply, hc])
  type t' ht' hor := (congrArg Settings.type hsettings).trans (htype t' ht' hor)
  running := hrunning
  stopped := hstopped

/-- The fields and the type, from the world `v` after `update_primary_user`. -/
theorem achieved_of_steps {v x : World L} (hfound : FoundById S w)
    (huser : Changed S i (fun s =>
      { s with primaryUser := data.primaryUser.getD s.primaryUser }) w v)
    (hclient : ∀ u, data.primaryUser = some u → u ≠ (w.instances.get i).primaryUser → HasClient w u)
    (hfields : Changed S i (data.apply S) v x)
    (hrunning : data.started = some true → (x.instances.get i).enabled = true →
      (x.instances.get i).started = true)
    (hstopped : data.started = some false → (x.instances.get i).started = false)
    (hswitch : ∀ t, data.type = some t → t ≠ (x.instances.get i).type →
      ∀ l, S.loaders.find x.loaders t = some l →
        Changed S i (fun s => { s with type := (metaOf S x l).id }) x w' ∧ RunsIfEnabled i w')
    (hkeep : (∀ t, data.type = some t →
      t = (x.instances.get i).type ∨ S.loaders.find x.loaders t = none) → w' = x) :
    Achieved S i data w w' := by
  have hx := huser.trans hfields
  have htype : (x.instances.get i).type = (w.instances.get i).type :=
    congrArg Settings.type hx.settings
  rw [htype, hx.find] at hswitch
  rw [htype, hx.find] at hkeep
  -- whether the type changes
  by_cases hch : ∃ t, data.type = some t ∧ t ≠ (w.instances.get i).type ∧
      (S.loaders.find w.loaders t).isSome = true
  · obtain ⟨t, ht, hne, hsome⟩ := hch
    obtain ⟨l, hl⟩ := Option.isSome_iff_exists.mp hsome
    obtain ⟨hchanged, hruns⟩ := hswitch t ht hne l hl
    have hw' := hx.trans hchanged
    have henabled : (w'.instances.get i).enabled =
        data.enabled.getD (w.instances.get i).enabled := congrArg Settings.enabled hw'.settings
    refine .of_settings hw'.settings hclient (fun t' ht' _ => ?_) (fun _ he => hruns.trans he)
      fun hs => ?_
    · obtain rfl : t = t' := Option.some.inj (ht.symm.trans ht')
      exact (hx.metaId l).trans (hfound.loaders t l hl)
    · rw [hruns, henabled]
      exact ⟨fun he => ⟨hs, he, t, ht, hne, hsome⟩, fun h => h.2.1⟩
  · obtain rfl := hkeep fun t ht => by
      by_contra hno
      rw [not_or] at hno
      exact hch ⟨t, ht, hno.1, by rw [Option.isSome_iff_ne_none]; exact hno.2⟩
    refine .of_settings hx.settings hclient (fun t ht hor => ?_) hrunning fun hs => ?_
    · rcases hor with rfl | hsome
      · rfl
      · by_contra hne
        exact hch ⟨t, ht, Ne.symm hne, hsome⟩
    · rw [hstopped hs]
      exact ⟨by simp, fun h => absurd h.2.2 hch⟩

/-- What it achieves if it reports nothing. -/
theorem achieves_updateInstance (henv : env.KeepsConfig) :
    Achieves (updateInstance S i data env) fun w r w' => FoundById S w →
      (r = Response.primaryUserNotFound ∧ w' = w ∧
        ∃ u, data.primaryUser = some u ∧ u ≠ (w.instances.get i).primaryUser ∧ ¬ HasClient w u) ∨
      (r = Response.updated false ∧ Achieved S i data w w') := by
  rw [updateInstance_eq]
  -- the primary user comes first: without a client for it the rest is not tried
  refine (achieves_updatePrimaryUser data.primaryUser henv.primaryUser).bind
    (T := fun b v r w' => if b = true then r = Response.updated false ∧ ∃ x,
        (Changed S i (data.apply S) v x ∧
          (data.started = some true → (x.instances.get i).enabled = true →
            (x.instances.get i).started = true) ∧
          (data.started = some false → (x.instances.get i).started = false)) ∧
        (∀ t, data.type = some t → t ≠ (x.instances.get i).type →
          ∀ l, S.loaders.find x.loaders t = some l →
            Changed S i (fun s => { s with type := (metaOf S x l).id }) x w' ∧
              RunsIfEnabled i w') ∧
        ((∀ t, data.type = some t →
          t = (x.instances.get i).type ∨ S.loaders.find x.loaders t = none) → w' = x)
      else r = Response.primaryUserNotFound ∧ w' = v) (fun b => ?_) ?_
  · cases b with
    | false => exact achieves_pure fun v => by simp
    | true =>
      simp only [if_true]
      refine (achieves_updateFields henv).bind
        (fun _ => (achieves_updateType data.type henv.type).bind
        (fun _ => achieves_pure (R := fun w r w' => r = Response.updated false ∧ w' = w)
          fun _ => ⟨rfl, rfl⟩) (Q := fun x r w' => r = Response.updated false ∧ _ ∧ _)
          fun _ _ _ _ _ h h' => ⟨h'.1, ?_, ?_⟩) fun _ _ x _ _ h h' => ⟨h'.1, x, h, h'.2⟩
      · exact h'.2 ▸ h.1
      · exact h'.2 ▸ h.2
  · intro w b v r w' huser hrest hfound
    obtain ⟨htrue, hfalse⟩ := huser hfound.clients
    cases b with
    -- there is no client: nothing has changed
    | false =>
      obtain ⟨rfl, hmissing⟩ := hfalse rfl
      simp only [Bool.false_eq_true, if_false] at hrest
      exact Or.inl ⟨hrest.1, hrest.2, hmissing⟩
    -- the owner, the fields and the type have been changed, one after the other
    | true =>
      simp only [if_true] at hrest
      obtain ⟨hr, x, ⟨hfields, hrunning, hstopped⟩, hswitch, hkeep⟩ := hrest
      obtain ⟨hchanged, hclient⟩ := htrue rfl
      exact Or.inr ⟨hr, achieved_of_steps hfound hchanged hclient hfields hrunning hstopped
        hswitch hkeep⟩

/-! ### Calls that are refused -/

/-- An id that is taken is refused. -/
theorem updateId_refused (h : RefusesId S i data w) :
    (updateId S i data.id).exec w = (.error { cls := .integrityError }, w) := by
  obtain ⟨n, hn, hne, hrow, htaken⟩ := h
  obtain ⟨row, hrow⟩ := Option.isSome_iff_exists.mp hrow
  have hrename : (renameRow (S.lower n) (w.instances.get i).id : Action L Unit).exec w =
      (.error { cls := .integrityError }, w) := by
    rw [renameRow, exec_get_bind, hrow]
    simp [htaken]
  rw [hn, updateId, exec_get_bind]
  show (if S.lower n = (w.instances.get i).id then pure () else
    updateRowId i (S.lower n) : Action L Unit).exec w = _
  rw [if_neg hne, updateRowId, exec_get_bind, exec_bind_error hrename]

/-- The user that it has is found again. -/
theorem updatePrimaryUser_of_not_changesUser (h : ¬ ChangesUser i data w)
    (e : StopEnv × StartEnv) :
    (updatePrimaryUser S i data.primaryUser e).exec w = (.ok true, w) := by
  rw [updatePrimaryUser, exec_get_bind]
  cases hu : data.primaryUser with
  | none => rfl
  | some u =>
    show (if u = (w.instances.get i).primaryUser then pure true else _ : Action L Bool).exec w = _
    rw [if_pos (by by_contra hne; exact h ⟨u, hu, hne⟩)]
    rfl

/-- The new id is refused before anything has changed. -/
theorem updateInstance_refused (h : RefusesId S i data w) (hu : ¬ ChangesUser i data w) :
    (updateInstance S i data env).exec w = (.error { cls := .integrityError }, w) := by
  rw [updateInstance, exec_bind_ok (updatePrimaryUser_of_not_changesUser hu _), if_pos rfl,
    exec_bind_error (updateId_refused h)]

/-- A call whose new id is refused does not return the updated instance. -/
theorem updateInstance_not_updated (h : RefusesId S i data w) :
    ((updateInstance S i data env).exec w).1 ≠ .ok (Response.updated false) := by
  intro hok
  obtain ⟨b, v, huser, hrest⟩ := exec_bind_eq_ok
    (show (updateInstance S i data env).exec w = (.ok (Response.updated false), _) from
      Prod.ext hok rfl)
  cases b with
  | false =>
    rw [if_neg (by simp)] at hrest
    cases hrest
  | true =>
    have hv := identity_updatePrimaryUser (S := S) i data.primaryUser env.primaryUser w
    rw [huser] at hv
    have hrefused : RefusesId S i data v := by
      obtain ⟨n, hn, hne, hrow, htaken⟩ := h
      exact ⟨n, hn, (hv.id i).symm ▸ hne, by rw [hv.id, hv.rows]; exact hrow,
        by rw [hv.rows]; exact htaken⟩
    rw [if_pos rfl, exec_bind_error (updateId_refused hrefused)] at hrest
    cases hrest

/-- A client that does not exist is refused before anything has changed. -/
theorem updateInstance_no_client {u : String} (hu : data.primaryUser = some u)
    (hne : u ≠ (w.instances.get i).primaryUser) (hmissing : ¬ HasClient w u) :
    (updateInstance S i data env).exec w = (.ok Response.primaryUserNotFound, w) := by
  have hget : (Client.get S u none none none).exec w = (.ok none, w) := by
    rcases Client.exec_get (S := S) u w with ⟨c, hc, _⟩ | ⟨row, _, _, hrow, _⟩ | ⟨_, _, he⟩
    · exact absurd (Or.inl (by rw [hc]; rfl)) hmissing
    · exact absurd (Or.inr (by rw [hrow]; rfl)) hmissing
    · exact he
  have huser : (updatePrimaryUser S i data.primaryUser env.primaryUser).exec w =
      (.ok false, w) := by
    rw [updatePrimaryUser, exec_get_bind, hu]
    show (if u = (w.instances.get i).primaryUser then pure true else _ : Action L Bool).exec w = _
    rw [if_neg hne, exec_bind_ok hget]
    rfl
  rw [updateInstance, exec_bind_ok huser]
  rfl

/-! ### The claim of the API -/

/-- What is achieved is what was requested, if nothing is restarted. -/
theorem Achieved.requested (h : Achieved S i data w w')
    (htype : ∀ t, data.type = some t → t = (w.instances.get i).type ∨
      (S.loaders.find w.loaders t).isSome = true)
    (hrestarts : ¬ Restarts S i data w) : Requested S data (w'.instances.get i) where
  primaryUser := h.primaryUser
  id := h.id
  enabled e he := h.enabled.trans (by rw [he]; rfl)
  config := h.config
  type t ht := h.type t ht (htype t ht)
  running := h.running
  stopped hs := by
    have := mt (h.stopped hs).mp hrestarts
    simpa using this

/-- So a request that is handled is answered correctly. -/
theorem updateCorrect_of_handled (henv : env.KeepsConfig) (hfound : FoundById S w)
    (hfail : failCount ((updateInstance S i data env).exec w).2 = failCount w)
    (h : Handled S i data w) : UpdateCorrect S i data env w := by
  rcases h with ⟨u, hu, hne, hmissing⟩ | ⟨hmissing, hrestarts⟩
  · have he : (updateInstance S i data env).exec w = (.ok Response.primaryUserNotFound, w) :=
      updateInstance_no_client hu hne hmissing
    unfold UpdateCorrect
    rw [he]
    exact ⟨fun hok => (by cases hok), fun _ => ⟨rfl, rfl⟩⟩
  by_cases hrefuses : RefusesId S i data w
  · refine ⟨fun hok => absurd hok (updateInstance_not_updated hrefuses), fun hm => ?_⟩
    rw [updateInstance_refused hrefuses (hmissing hm).2]
    exact ⟨rfl, rfl⟩
  · have hnone : ¬ Missing S w data := fun hm => hrefuses (hmissing hm).1
    refine ⟨fun hok => ?_, fun hm => absurd hm hnone⟩
    rcases (achieves_updateInstance henv w _ _ (Prod.ext hok rfl)).2 hfail hfound with
      ⟨hr, _⟩ | ⟨_, hach⟩
    · cases hr
    · refine hach.requested (fun t ht => Or.inr ?_) (mt hrestarts hrefuses)
      rw [Option.isSome_iff_ne_none]
      exact fun hf => hnone (Or.inr ⟨t, ht, hf⟩)

/-- **Updating an instance.**  A request that is handled is fulfilled, or refused without a
    change; and a call that returns a response has done so just if the request is one of
    these. -/
theorem updateCorrect_iff_handled (henv : env.KeepsConfig) (hfound : FoundById S w)
    (hfail : failCount ((updateInstance S i data env).exec w).2 = failCount w) :
    (Handled S i data w → UpdateCorrect S i data env w) ∧
      ∀ r, ((updateInstance S i data env).exec w).1 = .ok r →
        (UpdateCorrect S i data env w ↔ Handled S i data w) := by
  refine ⟨updateCorrect_of_handled henv hfound hfail, fun r hr =>
    ⟨fun hcorrect => ?_, updateCorrect_of_handled henv hfound hfail⟩⟩
  rcases (achieves_updateInstance henv w _ _ (Prod.ext hr rfl)).2 hfail hfound with
    ⟨_, _, hmissing⟩ | ⟨rfl, hach⟩
  · exact Or.inl hmissing
  · refine Or.inr ⟨fun hm => ?_, fun hrestarts => ?_⟩
    · have := (hcorrect.2 hm).1
      rw [hr] at this
      cases this
    · have hstopped := (hcorrect.1 hr).stopped hrestarts.1
      rw [(hach.stopped hrestarts.1).mpr hrestarts] at hstopped
      cases hstopped

end Maubot.Management

/-! ### A plugin type that does not exist -/

namespace Maubot.InstanceTest

open PluginInstance

/-- The instance of the witness is found by its id. -/
theorem found_foundById : Management.FoundById setup found where
  clients _ _ hc := nomatch hc
  loaders t l hl := by
    have hl : (if t = "plugin" then some 0 else none) = some l := hl
    by_cases ht : t = "plugin"
    · exact ht.symm
    · rw [if_neg ht] at hl
      cases hl

end Maubot.InstanceTest

namespace Maubot.Management

open Prog PluginInstance InstanceTest

/-- A plugin type that does not exist is answered like one that does. -/
theorem missingType_not_correct :
    ¬ ∀ i data env (w : World Unit), env.KeepsConfig → FoundById setup w →
      failCount ((updateInstance setup i data env).exec w).2 = failCount w →
      UpdateCorrect setup i data env w := by
  intro h
  have := (h 0 { type := some "other" } {} found ⟨⟨rfl, rfl⟩, rfl, ⟨rfl, rfl⟩, ⟨rfl, rfl⟩⟩
    found_foundById rfl).2 (Or.inr ⟨"other", rfl, by decide⟩)
  exact absurd this.1 (by decide +kernel)

/-- Disabling the instance and starting it, which then has no effect. -/
theorem disable_correct :
    UpdateCorrect setup 0 { enabled := some false, started := some true } {} found :=
  (updateCorrect_iff_handled ⟨⟨rfl, rfl⟩, rfl, ⟨rfl, rfl⟩, ⟨rfl, rfl⟩⟩ found_foundById rfl).1
    (Or.inr ⟨fun hm => by rcases hm with ⟨u, hu, _⟩ | ⟨t, ht, _⟩ <;> contradiction,
      fun hr => by obtain ⟨hs, _⟩ := hr; cases hs⟩)

end Maubot.Management
