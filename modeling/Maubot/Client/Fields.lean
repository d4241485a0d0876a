import Maubot.Client.Sync
import Maubot.Lib.Twin

namespace Maubot

open Prog

/-!
# Clients — the methods on views

An abstract model of the methods: what they do to a `ClientView`, and nothing else.

* `ClientView.Step` — a method on a view (`ClientView.start`, `ClientView.updateSync`, …); the
  plugins do not occur in it;
* `Describes` — the step ends like the method, and shows the view that the client has then
  (`describes_start`, `describes_updateSync`, …).
-/

variable {L : Type} {S : Setup L}

namespace ClientView

/-- A method, as far as it can be seen. -/
abbrev Step := Prog ClientView PyExc Unit

/-- The view that the step finds. -/
abbrev current : Prog ClientView PyExc ClientView := get

/-! ### The methods -/

def update : Step := do
  let v ← current
  if v.stored.isNone then pure ()
  else if v.row.notNull then modify saved
  else throw { cls := .integrityError }

def setRow (f : ClientRow → ClientRow) : Step := modify fun v => { v with row := f v.row }

def updateRemoteProfile (profile : ProfileAnswer) : Step := do
  let _ ← attempt PyExc.isException (outcome profile)
  pure ()

def disable : Step := do
  setRow fun row => { row with enabled := false }
  update

def createFilter (filter : Except PyExc String) : Step := do
  let v ← current
  when (v.row.filterId = "") do
    let f ← outcome filter
    setRow fun row => { row with filterId := f }
    update

def startCrypto (env : CryptoEnv) : Step := do
  let v ← current
  let _ ← outcome (env.run v.row.deviceId)
  pure ()

/-- Up to the plugins. -/
def bringUp (encrypted : Bool) (env : ClientStartEnv) : Step := do
  createFilter env.createFilter
  let v ← current
  when (v.row.displayname ≠ "disable") (raiseIf env.setDisplayname)
  when (v.row.avatarUrl ≠ "disable") (raiseIf env.setAvatarUrl)
  when (encrypted = true) (startCrypto env.crypto)
  modify synced
  updateRemoteProfile env.profile
  modify fun v => { v with started := true }

def tryStart (encrypted : Bool) (tryN : Nat) (env : ClientStartEnv) : Step := do
  let v ← current
  if !v.row.enabled then pure ()
  else if v.started then pure ()
  else
    let answer ← attempt PyExc.isException do
      raiseIf env.versions
      outcome env.whoami
    match answer with
    | .error e =>
      if e.cls = .matrixInvalidToken then disable
      else if 8 ≤ tryN then disable
      else pure ()
    | .ok me   =>
      if me.userId ≠ v.id then disable
      else if Client.otherDevice me v.row.deviceId then disable
      else bringUp encrypted env

/-- `start`, of a client with encryption or without. -/
def start (encrypted : Bool) (tryN : Nat) (env : ClientStartEnv) : Step := do
  let _ ← attempt PyExc.isException (tryStart encrypted tryN env)
  pure ()

/-- `stop`, which the plugins do not interrupt. -/
def stop : Step :=
  modify fun v => if v.started then { v with started := false, syncing := none } else v

def updateStarted (encrypted : Bool) (started : Option Bool) (env : ClientStartEnv) : Step := do
  let v ← current
  match started with
  | none   => pure ()
  | some b =>
    if b = v.started then pure ()
    else if b then start encrypted 0 env
    else stop

def updateProfile (field : Client.ProfileField) (value : Option String) (refused : Option PyExc)
    (profile : ProfileAnswer) : Step := do
  let v ← current
  match value with
  | none   => pure ()
  | some x =>
    if x = field.value v.row then pure ()
    else do
      setRow (field.set x)
      if x ≠ "disable" then raiseIf refused else updateRemoteProfile profile

def updateEnabled (enabled : Option Bool) : Step :=
  setRow fun row => { row with enabled := enabled.getD row.enabled }

def updateAutojoin (autojoin : Option Bool) : Step :=
  setRow fun row => { row with autojoin := autojoin.getD row.autojoin }

def updateOnline (online : Option Bool) : Step :=
  setRow fun row => { row with online := online.getD row.online }

/-- The filter of the sync task after `update_sync`. -/
def syncingAfter (sync : Option Bool) (v : ClientView) : Option String :=
  if sync.getD v.row.sync = v.row.sync ∨ v.started = false then v.syncing
  else if sync.getD v.row.sync then some v.row.filterId
  else none

/-- A client that is stopped syncs as before. -/
theorem syncingAfter_of_stopped {sync : Option Bool} {v : ClientView} (h : v.started = false) :
    syncingAfter sync v = v.syncing := if_pos (.inr h)

/-- So does one that is to sync as it does. -/
theorem syncingAfter_of_same {sync : Option Bool} {v : ClientView}
    (h : sync.getD v.row.sync = v.row.sync) : syncingAfter sync v = v.syncing := if_pos (.inl h)

/-- A started one begins or ends. -/
theorem syncingAfter_of_started {b : Bool} {v : ClientView} (h : v.started = true)
    (hb : v.row.sync ≠ b) :
    syncingAfter (some b) v = if b then some v.row.filterId else none := by
  refine if_neg ?_
  rintro (hsame | hstopped)
  · exact hb hsame.symm
  · rw [h] at hstopped
    cases hstopped

def updateSync (sync : Option Bool) : Step :=
  modify fun v =>
    { v with row := { v.row with sync := sync.getD v.row.sync }, syncing := syncingAfter sync v }

/-! ### What the methods leave alone -/

/-- The frame of a step that keeps the Matrix client and the credentials, and neither creates
    nor deletes the row. -/
def SameAccess : Frame ClientView :=
  .ofView fun v => (v.client, v.stored.isSome, v.row.homeserver, v.row.accessToken)

/-- Saving the row leaves the access details. -/
theorem sameAccess_update : Keeps SameAccess update := by
  refine keeps_bind keeps_get fun _ =>
    keeps_ite (keeps_pure ()) (keeps_ite (fun v => ?_) (keeps_throw _))
  show SameAccess.rel v v.saved
  rw [saved]
  split
  · next hs =>
    show (v.client, (some v.row).isSome, _) = (v.client, v.stored.isSome, _)
    rw [hs]
    rfl
  · rfl

/-- So does disabling the client, -/
theorem sameAccess_disable : Keeps SameAccess disable :=
  keeps_bind (fun _ => rfl) fun _ => sameAccess_update

/-- its profile, -/
theorem sameAccess_updateRemoteProfile (profile : ProfileAnswer) :
    Keeps SameAccess (updateRemoteProfile profile) :=
  keeps_bind (keeps_attempt (keeps_outcome _) _) fun _ => keeps_pure ()

/-- the rest of a start, -/
theorem sameAccess_bringUp (encrypted : Bool) (env : ClientStartEnv) :
    Keeps SameAccess (bringUp encrypted env) := by
  have hfilter : Keeps SameAccess (createFilter env.createFilter) :=
    keeps_bind keeps_get fun _ => keeps_when <| keeps_bind (keeps_outcome _) fun _ =>
      keeps_bind (fun _ => rfl) fun _ => sameAccess_update
  have hcrypto : Keeps SameAccess (startCrypto env.crypto) :=
    keeps_bind keeps_get fun _ => keeps_bind (keeps_outcome _) fun _ => keeps_pure ()
  exact keeps_bind hfilter fun _ => keeps_bind keeps_get fun _ =>
    keeps_bind (keeps_when (keeps_raiseIf _)) fun _ =>
    keeps_bind (keeps_when (keeps_raiseIf _)) fun _ => keeps_bind (keeps_when hcrypto) fun _ =>
    keeps_bind (fun _ => rfl) fun _ => keeps_bind (sameAccess_updateRemoteProfile _) fun _ =>
    fun _ => rfl

/-- a start, -/
theorem sameAccess_start (encrypted : Bool) (tryN : Nat) (env : ClientStartEnv) :
    Keeps SameAccess (start encrypted tryN env) := by
  refine keeps_bind (keeps_attempt ?_ _) fun _ => keeps_pure ()
  refine keeps_bind keeps_get fun v => keeps_ite (keeps_pure ()) (keeps_ite (keeps_pure ()) ?_)
  refine keeps_bind (keeps_attempt (keeps_bind (keeps_raiseIf _) fun _ => keeps_outcome _) _)
    fun r => ?_
  cases r with
  | error e =>
    exact keeps_ite sameAccess_disable (keeps_ite sameAccess_disable (keeps_pure ()))
  | ok me =>
    exact keeps_ite sameAccess_disable (keeps_ite sameAccess_disable (sameAccess_bringUp _ _))

/-- and a start or stop on request. -/
theorem sameAccess_updateStarted (encrypted : Bool) (started : Option Bool) (env : ClientStartEnv) :
    Keeps SameAccess (updateStarted encrypted started env) := by
  refine keeps_bind keeps_get fun v => ?_
  cases started with
  | none => exact keeps_pure ()
  | some b =>
    refine keeps_ite (keeps_pure ()) (keeps_ite (sameAccess_start _ _ _) fun v => ?_)
    show SameAccess.rel v (if v.started then { v with started := false, syncing := none } else v)
    split <;> rfl

end ClientView

namespace Client

variable {c : Ref} {encrypted : Bool}

/-! ### Descriptions -/

/-- The client `c` looks like the view. -/
def Seeing (c : Ref) (w : World L) (v : ClientView) : Prop := Sees c v w

/-- … and has an `OlmMachine` or not. -/
def SeeingCrypto (c : Ref) (encrypted : Bool) (w : World L) (v : ClientView) : Prop :=
  Sees c v w ∧ (w.clients.get c).crypto.isSome = encrypted

/-- The step describes the method of the client. -/
abbrev Describes (c : Ref) (a : ClientView.Step) (m : Action L Unit) : Prop :=
  Twin (Seeing c) m a (fun _ => Seeing c) (Seeing c)

/-- … which does not touch the encryption. -/
abbrev DescribesCrypto (c : Ref) (encrypted : Bool) (a : ClientView.Step) (m : Action L Unit) :
    Prop :=
  Twin (SeeingCrypto c encrypted) m a (fun _ => SeeingCrypto c encrypted) (SeeingCrypto c encrypted)

/-- What describes a client with its crypto machine describes it. -/
theorem describes_of_crypto {a : ClientView.Step} {m : Action L Unit}
    (h : ∀ encrypted, DescribesCrypto c encrypted a m) : Describes c a m := by
  intro w v hv
  have hrun := h (w.clients.get c).crypto.isSome w v ⟨hv, rfl⟩
  rcases hr : m.exec w with ⟨e | _, w'⟩ <;> rcases hr' : a.exec v with ⟨d | _, v'⟩ <;>
    rw [hr, hr'] at hrun
  · exact ⟨hrun.1, hrun.2.1⟩
  · exact hrun.elim
  · exact hrun.elim
  · exact ⟨rfl, hrun.2.1⟩

/-! ### Steps of the methods -/

/-- The frame of a step that does not touch the encryption. -/
def SameCrypto (L : Type) (c : Ref) : Frame (World L) :=
  .ofView fun w => (w.clients.get c).crypto.isSome

/-- A step with a triple. -/
theorem describes_modify {m : Action L Unit} {g : ClientView → ClientView}
    (hm : ∀ v, Triple (Sees c v) m (fun _ => Sees c (g v)) fun _ => False)
    (hk : Keeps (SameCrypto L c) m) : DescribesCrypto c encrypted (modify g) m := by
  rintro w v ⟨hv, hcrypto⟩
  obtain ⟨_, w', hr, hv'⟩ := (hm v).returns hv
  have hsame : (((m.exec w).2.clients.get c).crypto.isSome) = _ := hk w
  rw [hr] at hsame ⊢
  exact ⟨rfl, hv', hsame.trans hcrypto⟩

/-- A step that is not seen, and returns. -/
theorem describes_unseen {m : Action L Unit} (hm : Returns m) (hunseen : Keeps (Unseen L c) m)
    (hk : Keeps (SameCrypto L c) m) : DescribesCrypto c encrypted (pure ()) m := by
  rintro w v ⟨hv, hcrypto⟩
  obtain ⟨_, hok⟩ := hm.exists_ok w
  have hsame : (((m.exec w).2.clients.get c).crypto.isSome) = _ := hk w
  have hv' := hunseen w v hv
  rcases hr : m.exec w with ⟨e | _, w'⟩ <;> rw [hr] at hok hsame hv'
  · cases hok
  · exact ⟨rfl, hv', hsame.trans hcrypto⟩

/-- An exception is the same in the view. -/
theorem describes_raiseIf (x : Option PyExc) :
    DescribesCrypto c encrypted (raiseIf x) (raiseIf x : Action L Unit) :=
  twin_raiseIf x (fun _ _ h => h) fun _ _ h => h

/-- A field besides the machine leaves whether there is one. -/
theorem sameCrypto_setClient {f : Client → Client}
    (hf : ∀ cl, (f cl).crypto.isSome = cl.crypto.isSome) :
    Keeps (SameCrypto L c) (setClient c f) := fun w =>
  Store.view_modify w.clients c f (fun cl => cl.crypto.isSome) hf c

/-- The row is in the view. -/
theorem describes_setRow (f : ClientRow → ClientRow) :
    DescribesCrypto c encrypted (ClientView.setRow f) (setClientRow c f : Action L Unit) :=
  describes_modify (fun _ => triple_setRow f) (sameCrypto_setClient fun _ => rfl)

/-- So is the sync, -/
theorem describes_startSync :
    DescribesCrypto c encrypted (modify ClientView.synced) (startSync c : Action L Unit) :=
  describes_modify (fun _ => triple_startSync) <|
    keeps_bind keeps_get fun _ => keeps_when fun _ => rfl

/-- and the flag. -/
theorem describes_setStarted (b : Bool) :
    DescribesCrypto c encrypted (modify fun v => { v with started := b })
      (setClient c fun cl => { cl with started := b } : Action L Unit) :=
  describes_modify (fun _ => triple_setStarted b) (sameCrypto_setClient fun _ => rfl)

/-- Saving writes the row of the view. -/
theorem describes_update :
    DescribesCrypto c encrypted ClientView.update (update c : Action L Unit) := by
  rintro w v ⟨hv, hcrypto⟩
  have hrow : w.clientRows (w.clients.get c).id = v.stored := by rw [hv.id, hv.stored]
  rw [update, ClientView.update, exec_get_bind, exec_get_bind]
  dsimp only
  rw [hrow, hv.row]
  cases hs : v.stored with
  | none => exact ⟨rfl, hv, hcrypto⟩
  | some r =>
    cases hnull : v.row.notNull with
    | false => exact ⟨rfl, hv, hcrypto⟩
    | true =>
      rw [Option.isNone_some, if_neg Bool.false_ne_true, if_pos rfl]
      refine ⟨rfl, ?_, hcrypto⟩
      rw [ClientView.saved, hs, Option.isSome_some, if_pos rfl]
      exact .intro hv.lt hv.clientLt hv.id hv.row hv.started hv.client hv.syncing
        (by rw [← hv.id]; exact Function.update_self _ _ _) hv.cached

/-- The profile is asked for as the row of the view says. -/
theorem describes_updateRemoteProfile (profile : ProfileAnswer) :
    DescribesCrypto c encrypted (ClientView.updateRemoteProfile profile)
      (updateRemoteProfile c profile : Action L Unit) := by
  refine Twin.bind (twin_attempt (R := fun _ => SeeingCrypto c encrypted) _
    (twin_outcome profile (fun _ _ _ h => h) fun _ _ h => h) (fun _ _ _ h => h) fun _ _ _ h => h)
    fun r => ?_
  cases r with
  | ok p =>
    exact describes_unseen (raises_modify _)
      (unseen_setClient c (fun _ => rfl) (fun _ => rfl) (fun _ => rfl) fun _ => rfl)
      (sameCrypto_setClient fun _ => rfl)
  | error e => exact twin_pure () fun _ _ h => h

/-- The machine starts for the device of the view. -/
theorem describes_startCrypto (env : CryptoEnv) :
    DescribesCrypto c encrypted (ClientView.startCrypto env)
      (startCrypto c env : Action L Unit) := by
  refine twin_get_bind fun w v hv => ?_
  rw [hv.1.row]
  refine Twin.bind (twin_outcome (env.run v.row.deviceId) (Q := fun _ => SeeingCrypto c encrypted)
    (fun _ _ _ h => h) fun _ _ h => h) fun t => ?_
  exact describes_unseen (raises_modify _)
    (unseen_setClient c (fun _ => rfl) (fun _ => rfl) (fun _ => rfl) fun _ => rfl)
    (sameCrypto_setClient fun _ => rfl)

/-- The filter is made if the view has none. -/
theorem describes_createFilter (filter : Except PyExc String) :
    DescribesCrypto c encrypted (ClientView.createFilter filter)
      (createFilter c filter : Action L Unit) := by
  refine twin_get_bind fun w v hv => ?_
  rw [hv.1.row]
  refine twin_when ?_ fun _ _ h => h
  refine Twin.bind (twin_outcome filter (Q := fun _ => SeeingCrypto c encrypted)
    (fun _ _ _ h => h) fun _ _ h => h) fun f => ?_
  exact (describes_setRow _).bind fun _ => describes_update

/-- The client is disabled in the view. -/
theorem describes_disable :
    DescribesCrypto c encrypted ClientView.disable (disable c : Action L Unit) :=
  (describes_setRow _).bind fun _ => describes_update

/-! ### Start -/

/-- The plugins of a client raise only `Exception`s when they start. -/
theorem exceptions_startPlugins (hload : ∀ l, Exceptions (S.loaders.load l)) {env : Ref → StartEnv}
    (henv : ∀ i, Proper (env i).exceptions) : Exceptions (startPlugins S c env) := by
  refine raises_bind raises_get fun w => raises_gather fun m hm => ?_
  obtain ⟨i, -, rfl⟩ := List.mem_map.mp hm
  exact PluginInstance.exceptions_start hload (henv i)

section Start

variable (hload : ∀ l, Exceptions (S.loaders.load l)) {env : ClientStartEnv}
  (henv : ∀ i, Proper (env.plugins i).exceptions)

include hload henv

/-- After the last step of the client itself, its plugins start. -/
theorem describes_bringUp : TwinUpTo PyExc.isException (SeeingCrypto c encrypted)
    (bringUp S c env) (ClientView.bringUp encrypted env) (Seeing c) := by
  have hcrypto {a : ClientView.Step} {m : Action L Unit} (h : DescribesCrypto c encrypted a m) :
      Twin (SeeingCrypto c encrypted) m a (fun _ => SeeingCrypto c encrypted) (Seeing c) :=
    h.post (fun _ _ _ h => h) fun _ _ h => h.1
  have hstarted : TwinUpTo PyExc.isException (SeeingCrypto c encrypted)
      (do setClient c fun cl => { cl with started := true }; startPlugins S c env.plugins)
      (modify fun v => { v with started := true } : ClientView.Step) (Seeing c) := by
    rw [← bind_pure (modify _ : ClientView.Step)]
    refine (hcrypto (describes_setStarted true)).bind_upTo fun _ => ?_
    exact twinUpTo_of_raises () (exceptions_startPlugins hload henv) fun w v h =>
      unseen_startPlugins env.plugins w v h.1
  refine (hcrypto (describes_createFilter env.createFilter)).bind_upTo fun _ =>
    twinUpTo_get_bind fun w v hv => ?_
  rw [hv.1.row, hv.2]
  refine (twin_when (hcrypto (describes_raiseIf _)) fun _ _ h => h).bind_upTo fun _ => ?_
  refine (twin_when (hcrypto (describes_raiseIf _)) fun _ _ h => h).bind_upTo fun _ => ?_
  refine (twin_when (hcrypto (describes_startCrypto _)) fun _ _ h => h).bind_upTo fun _ => ?_
  refine (hcrypto describes_startSync).bind_upTo fun _ => ?_
  exact (hcrypto (describes_updateRemoteProfile _)).bind_upTo fun _ => hstarted

/-- Hence a start is described by the view's own, with or without a machine. -/
theorem describes_start (tryN : Nat) :
    Twin (SeeingCrypto c encrypted) (start S c tryN env) (ClientView.start encrypted tryN env)
      (fun _ => Seeing c) (Seeing c) := by
  have hcrypto {a : ClientView.Step} {m : Action L Unit} (h : DescribesCrypto c encrypted a m) :
      TwinUpTo PyExc.isException (SeeingCrypto c encrypted) m a (Seeing c) :=
    Twin.upTo _ (h.post (fun _ _ _ h => h.1) fun _ _ h => h.1)
  have hsame : DescribesCrypto c encrypted (pure ()) (pure () : Action L Unit) :=
    twin_pure () fun _ _ h => h
  -- both ask the homeserver alike, and what it answers decides alike
  have hrequests : Twin (SeeingCrypto c encrypted)
      (attempt PyExc.isException do raiseIf env.versions; outcome env.whoami : Action L _)
      (attempt PyExc.isException do raiseIf env.versions; outcome env.whoami :
        Prog ClientView PyExc _) (fun _ => SeeingCrypto c encrypted) (Seeing c) := by
    refine (twin_attempt _ (Q := fun _ => SeeingCrypto c encrypted) ?_ (fun _ _ _ h => h)
      fun _ _ _ h => h).post (fun _ _ _ h => h) fun _ _ h => h.1
    exact (describes_raiseIf env.versions).bind fun _ =>
      twin_outcome env.whoami (fun _ _ _ h => h) fun _ _ h => h
  refine TwinUpTo.attempt (twinUpTo_get_bind fun w v hv => ?_)
  dsimp only
  rw [hv.1.row, hv.1.started, hv.1.id]
  by_cases henabled : (!v.row.enabled) = true
  · rw [if_pos henabled, if_pos henabled]
    exact hcrypto hsame
  rw [if_neg henabled, if_neg henabled]
  by_cases hstarted : v.started = true
  · rw [if_pos hstarted, if_pos hstarted]
    exact hcrypto hsame
  rw [if_neg hstarted, if_neg hstarted]
  refine hrequests.bind_upTo fun answer => ?_
  cases answer with
  | error e =>
    dsimp only
    rw [startFailed]
    split
    · exact hcrypto describes_disable
    split
    · exact hcrypto describes_disable
    · exact hcrypto <| describes_unseen (raises_modify _)
        (unseen_setClient c (fun _ => rfl) (fun _ => rfl) (fun _ => rfl) fun _ => rfl)
        (sameCrypto_setClient fun _ => rfl)
  | ok me =>
    dsimp only
    split
    · exact hcrypto describes_disable
    split
    · exact hcrypto describes_disable
    · exact describes_bringUp hload henv

end Start

/-! ### Stop -/

/-- So is a stop, if the plugins raise nothing that is not caught, -/
theorem describes_stop (S : Setup L) {env : Ref → StopEnv} (henv : ∀ i, Proper (env i).exceptions) :
    Describes c ClientView.stop (stop c env : Action L Unit) := by
  intro w v hv
  by_cases hstarted : v.started = true
  · have hview : ClientView.stop.exec v =
      (.ok (), { v with started := false, syncing := none }) := by
      rw [ClientView.stop, exec_modify, if_pos hstarted]
    have hpolite : Polite env c w := fun i _ _ => by
      obtain ⟨hpre, hdatabase⟩ := (henv i).append
      exact ⟨hpre.append.1, hpre.append.2, hdatabase⟩
    obtain ⟨r, w', hr, ⟨hnot, -⟩ | ⟨rfl, hv'⟩⟩ := sees_stop S hv hstarted env
    · exact absurd hpolite hnot
    · rw [hr, hview]
      exact ⟨rfl, hv'⟩
  · have hview : ClientView.stop.exec v = (.ok (), v) := by
      rw [ClientView.stop, exec_modify, if_neg hstarted]
    rw [hview, stop, exec_get_bind, when, if_neg (by rw [hv.started]; exact hstarted)]
    exact ⟨rfl, hv⟩

/-! ### Updates -/

/-- and either on request. -/
theorem describes_updateStarted (hload : ∀ l, Exceptions (S.loaders.load l))
    {stopEnv : Ref → StopEnv} {startEnv : ClientStartEnv} (started : Option Bool)
    (hstop : ∀ i, Proper (stopEnv i).exceptions)
    (hstart : ∀ i, Proper (startEnv.plugins i).exceptions) :
    Twin (SeeingCrypto c encrypted) (updateStarted S c started stopEnv startEnv)
      (ClientView.updateStarted encrypted started startEnv) (fun _ => Seeing c) (Seeing c) := by
  refine twin_get_bind (E := Seeing c) fun w v hv => ?_
  rw [hv.1.started]
  cases started with
  | none => exact twin_pure () fun _ _ h => h.1
  | some b =>
    dsimp only
    split
    · exact twin_pure () fun _ _ h => h.1
    cases b with
    | true => exact describes_start hload hstart 0
    | false =>
      intro w v hv
      exact describes_stop S hstop w v hv.1

/-- The fields of the profile. -/
theorem describes_updateProfile (field : ProfileField) (value : Option String)
    (refused : Option PyExc) (profile : ProfileAnswer) :
    DescribesCrypto c encrypted (ClientView.updateProfile field value refused profile)
      (updateProfile field c value refused profile false : Action L Unit) := by
  refine twin_get_bind fun w v hv => ?_
  rw [hv.1.row]
  cases value with
  | none => exact twin_pure () fun _ _ h => h
  | some x =>
    dsimp only
    split
    · exact twin_pure () fun _ _ h => h
    -- the row is not written
    have hskip {m : Action L Unit} : (do m; when (false = true) (update c)) = m := bind_pure m
    refine (describes_setRow (field.set x)).bind fun _ => ?_
    split
    · rw [hskip]
      exact describes_raiseIf refused
    · rw [hskip]
      exact describes_updateRemoteProfile profile

/-- The flag is set in the view, -/
theorem describes_updateEnabled (enabled : Option Bool) :
    Describes c (ClientView.updateEnabled enabled)
      (updateEnabled c enabled false : Action L Unit) := by
  refine describes_of_crypto fun encrypted w v hv => ?_
  have hview : (ClientView.updateEnabled enabled).exec v =
      (.ok (), { v with row := { v.row with enabled := enabled.getD v.row.enabled } }) := rfl
  rw [hview, updateEnabled, exec_get_bind, hv.1.row]
  cases enabled with
  | none => exact ⟨rfl, hv⟩
  | some b =>
    dsimp only
    by_cases hsame : b = v.row.enabled
    · rw [if_pos hsame, hsame]
      exact ⟨rfl, hv⟩
    · rw [if_neg hsame]
      exact describes_setRow (fun row => { row with enabled := b }) w v hv

/-- What the method does besides the assignment, one does not see. -/
theorem describes_unseen_setRow {m : Action L Unit} (hm : Returns m)
    (hunseen : Keeps (Unseen L c) m)
    (hk : Keeps (SameCrypto L c) m) (f : ClientRow → ClientRow) :
    DescribesCrypto c encrypted (ClientView.setRow f) (do m; setClientRow c f) :=
  (describes_unseen hm hunseen hk).bind fun _ => describes_setRow f

/-- so is that of joining, -/
theorem describes_updateAutojoin (autojoin : Option Bool) :
    Describes c (ClientView.updateAutojoin autojoin)
      (updateAutojoin c autojoin false : Action L Unit) := by
  refine describes_of_crypto fun encrypted w v hv => ?_
  have hview : (ClientView.updateAutojoin autojoin).exec v =
      (.ok (), { v with row := { v.row with autojoin := autojoin.getD v.row.autojoin } }) := rfl
  rw [hview, updateAutojoin, exec_get_bind, hv.1.row]
  cases autojoin with
  | none => exact ⟨rfl, hv⟩
  | some b =>
    dsimp only
    by_cases hsame : b = v.row.autojoin
    · rw [if_pos hsame, hsame]
      exact ⟨rfl, hv⟩
    · rw [if_neg hsame]
      have hhandlers {m : Action L Unit} (hm : Returns m) (hsame : Keeps (SameSync L) m) :
          DescribesCrypto c encrypted (ClientView.setRow fun row => { row with autojoin := b })
            (do m; setClientRow c fun row => { row with autojoin := b }) :=
        describes_unseen_setRow hm (unseen_of_sameSync hsame) (hsame.mono fun h => by
          show (World.clients _ |>.get c).crypto.isSome = _
          rw [h.clients]) _
      cases b with
      | true =>
        exact hhandlers (m := addEventHandler (w.clients.get c).client "ROOM_MEMBER"
          (.handleInvite c)) (raises_modify _) (sameSync_addEventHandler _ _ _) w v hv
      | false =>
        exact hhandlers (m := removeEventHandler (w.clients.get c).client "ROOM_MEMBER"
          (.handleInvite c)) (raises_modify _) (fun _ => ⟨rfl, rfl, rfl, rfl, fun _ => rfl⟩) w v hv

/-- the presence, -/
theorem describes_updateOnline (online : Option Bool) :
    Describes c (ClientView.updateOnline online) (updateOnline c online false : Action L Unit) := by
  refine describes_of_crypto fun encrypted w v hv => ?_
  have hview : (ClientView.updateOnline online).exec v =
      (.ok (), { v with row := { v.row with online := online.getD v.row.online } }) := rfl
  rw [hview, updateOnline, exec_get_bind, hv.1.row]
  cases online with
  | none => exact ⟨rfl, hv⟩
  | some b =>
    dsimp only
    by_cases hsame : b = v.row.online
    · rw [if_pos hsame, hsame]
      exact ⟨rfl, hv⟩
    · rw [if_neg hsame]
      exact describes_unseen_setRow (raises_modify _)
        (m := setMatrixClient (w.clients.get c).client fun mc => { mc with presence := b })
        (unseen_of_sameSync (sameSync_setMatrixClient _ fun _ => rfl)) (keeps_modify fun _ => rfl)
        (fun row => { row with online := b }) w v hv

/-- and the sync. -/
theorem describes_updateSync (sync : Option Bool) :
    Describes c (ClientView.updateSync sync) (updateSync c sync false : Action L Unit) := by
  intro w v hv
  have hview : (ClientView.updateSync sync).exec v = (.ok (), { v with
      row := { v.row with sync := sync.getD v.row.sync }
      syncing := ClientView.syncingAfter sync v }) := rfl
  rw [hview, updateSync, exec_get_bind, hv.row, hv.started]
  cases sync with
  | none =>
    rw [ClientView.syncingAfter_of_same rfl]
    exact ⟨rfl, hv⟩
  | some b =>
    dsimp only [Option.getD_some]
    -- a flag that does not change starts and stops nothing
    by_cases hsame : v.row.sync = b
    · have hsame' : (some b).getD v.row.sync = v.row.sync := hsame.symm
      rw [if_pos hsame, ClientView.syncingAfter_of_same hsame', ← hsame]
      exact ⟨rfl, hv⟩
    rw [if_neg hsame]
    let v₁ : ClientView := { v with row := { v.row with sync := b } }
    have hset : Triple (Sees c v) (setClientRow c fun row => { row with sync := b } : Action L Unit)
        (fun _ => Sees c v₁) (fun _ => False) := triple_setRow fun row => { row with sync := b }
    have hrest : Triple (Sees c v₁) (do
        when (v.started = true) (if b = true then startSync c else stopSync c)
        when (false = true) (update c) : Action L Unit)
        (fun _ => Sees c { v₁ with syncing := ClientView.syncingAfter (some b) v })
        (fun _ => False) := by
      refine Triple.bind (Q := fun _ => Sees c { v₁ with
        syncing := ClientView.syncingAfter (some b) v }) ?_ fun _ => triple_pure fun _ h => h
      by_cases hstarted : v.started = true
      · rw [ClientView.syncingAfter_of_started hstarted hsame, when, if_pos hstarted]
        cases b with
        | true => exact triple_startSync
        | false => exact triple_stopSync
      · -- nothing runs yet
        rw [ClientView.syncingAfter_of_stopped (by simpa using hstarted), when, if_neg hstarted]
        exact triple_pure fun _ h => h
    obtain ⟨_, w', hr, hv'⟩ := (hset.bind fun _ => hrest).returns hv
    have hrun : (do
        setClientRow c fun row => { row with sync := b }
        when (v.started = true) (if b = true then startSync c else stopSync c)
        when (false = true) (update c) : Action L Unit).exec w = (.ok (), w') := hr
    rw [hrun]
    exact ⟨rfl, hv'⟩

/-! ### Access details -/

/-- Nothing is asked of the end. -/
theorem triple_true {α : Type} (m : Action L α) :
    Triple (fun _ => True) m (fun _ _ => True) fun _ => True := by
  intro w _
  rcases m.exec w with ⟨_ | _, _⟩ <;> trivial

/-- The frame of a step that keeps the Matrix client and the encryption. -/
def SameMachine (L : Type) (c : Ref) : Frame (World L) :=
  .ofView fun w => ((w.clients.get c).client, (w.clients.get c).crypto.isSome)

/-- After the switch, the client has the new Matrix client, and encryption if it is enabled. -/
theorem machine_switchAccess (m : Ref) (token homeserver : Option String) (deviceId : String)
    (crypto : CryptoEnv) :
    Triple (fun _ => True) (switchAccess S c m token homeserver deviceId crypto)
      (fun _ w => (w.clients.get c).client = m ∧
        (w.clients.get c).crypto.isSome = (deviceId != "" && S.cryptoDb)) (fun _ => True) := by
  -- after the assignments the device decides whether there is a machine
  let P (w : World L) : Prop :=
    (w.clients.get c).client = m ∧ (w.clients.get c).row.deviceId = deviceId
  let Q (b : Bool) (w : World L) : Prop := (w.clients.get c).client = m ∧
    (w.clients.get c).crypto.isSome = b
  have hkept {b : Bool} {n : Action L Unit} (hn : Keeps (SameMachine L c) n) :
      Triple (Q b) n (fun _ => Q b) fun _ => True := by
    refine (hn.triple fun w w' h hw => ?_).post (fun _ _ h => h) fun _ _ => trivial
    simp only [SameMachine, Frame.ofView, Prod.mk.injEq] at h
    exact ⟨h.1.trans hw.1, h.2.trans hw.2⟩
  have hassign : Triple (fun _ => True) (do
      setClient c fun cl => { cl with client := m }
      setClientRow c fun row => { row with homeserver, accessToken := token, deviceId } :
        Action L Unit) (fun _ => P) (fun _ => True) := by
    intro w _
    exact ⟨by rw [Store.get_modify_self, Store.get_modify_self], by rw [Store.get_modify_self]⟩
  have hsync {b : Bool} : Triple (Q b) (startSync c : Action L Unit) (fun _ => Q b) fun _ => True :=
    hkept <| keeps_bind keeps_get fun _ => keeps_when fun _ => rfl
  have hcrypto : Triple (Q true) (startCrypto c crypto : Action L Unit) (fun _ => Q true)
      fun _ => True := by
    refine hkept <| keeps_bind keeps_get fun _ => keeps_bind (keeps_outcome _) fun t w => ?_
    exact Store.view_modify w.clients c (fun cl => { cl with trustState := some t })
      (fun cl => (cl.client, cl.crypto.isSome)) (fun _ => rfl) c
  have hprepare : Triple P (prepareCrypto c : Action L Unit) (fun _ => Q true) fun _ => True := by
    refine triple_read fun w _ => Triple.bind (Q := fun _ => P) (triple_forM fun h _ _ hw => hw)
      fun _ => Triple.bind (Q := fun _ => Q true) (fun w hw => ?_) fun _ _ hw => hw
    exact ⟨by rw [Store.get_modify_self]; exact hw.1, by rw [Store.get_modify_self]; rfl⟩
  refine (triple_true _).bind fun _ => (triple_true _).bind fun _ => triple_read fun _ _ =>
    (triple_true _).bind fun _ => (triple_true _).bind fun _ => ?_
  have hlast : Triple P (do
      let w ← world
      if enableCrypto S (w.clients.get c) then do
        prepareCrypto c
        startCrypto c crypto
      else
        setClient c fun cl => { cl with crypto := none }
      startSync c) (fun _ => Q (deviceId != "" && S.cryptoDb)) fun _ => True := by
    refine triple_read fun w hw => ?_
    rw [enableCrypto, hw.2]
    cases hon : (deviceId != "" && S.cryptoDb) with
    | true => exact (hprepare.bind fun _ => hcrypto).bind fun _ => hsync
    | false =>
      refine Triple.bind (Q := fun _ => Q false) (fun w hw => ?_) fun _ => hsync
      exact ⟨by rw [Store.get_modify_self]; exact hw.1, by rw [Store.get_modify_self]; rfl⟩
  exact hassign.bind fun _ => hlast

/-- Without a switch, no client is changed. -/
theorem clients_updateAccessDetails {token homeserver deviceId : Option String} {env : AccessEnv}
    {w : World L} (h : ¬ Swaps token homeserver deviceId env (view c w)) :
    ((updateAccessDetails S c token homeserver deviceId env).exec w).2.clients = w.clients := by
  rcases updateAccessDetails_cases (S := S) c token homeserver deviceId env w with hr | hr | ⟨hs, -⟩
  · rw [hr]
  · rw [hr]
    rfl
  · exact absurd hs h

/-- New access details that are accepted bring a crypto machine for the new device. -/
theorem machine_updateAccessDetails {token homeserver deviceId : Option String} {env : AccessEnv}
    {w : World L} (h : Swaps token homeserver deviceId env (view c w))
    (hok : ((updateAccessDetails S c token homeserver deviceId env).exec w).1 = .ok ()) :
    let w' := ((updateAccessDetails S c token homeserver deviceId env).exec w).2
    (w'.clients.get c).client = w.matrixClients.next ∧ (w'.clients.get c).crypto.isSome =
      (deviceId.getD (w.clients.get c).row.deviceId != "" && S.cryptoDb) := by
  obtain ⟨w₁, hmake⟩ : ∃ w₁, (makeClient c homeserver token
      (some (deviceId.getD (w.clients.get c).row.deviceId)) : Action L Ref).exec w =
        (.ok w.matrixClients.next, w₁) := ⟨_, rfl⟩
  rw [exec_updateAccessDetails_of_swaps h, exec_bind_ok hmake] at hok ⊢
  have hswitch := machine_switchAccess (S := S) (c := c) w.matrixClients.next token homeserver
    (deviceId.getD (w.clients.get c).row.deviceId) env.crypto w₁ trivial
  rcases hr : (switchAccess S c w.matrixClients.next token homeserver
      (deviceId.getD (w.clients.get c).row.deviceId) env.crypto).exec w₁ with ⟨e | _, w₂⟩ <;>
    rw [hr] at hok hswitch
  · cases hok
  · exact hswitch

end Client

end Maubot
