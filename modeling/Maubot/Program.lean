import Maubot.Instance.Uncaught
import Maubot.Runs

namespace Maubot

open Prog PluginInstance

/-!
# The start of the program — `__main__.py`

The instances are loaded, the clients are started, which start their plugins, and the instances are
loaded once more.

* `instanceOf`, `clientOf`, `collect` — `PluginInstance.all()` and `Client.all()`;
* `Settled` — which instances run, and why; `Tried` — what has become of a client;
* `settled_start`, `tried_start` — the installation that the start leaves is settled, and every
  client in it has been tried, whatever failed.
-/

variable {L : Type} (S : Setup L)

namespace Program

/-! ### The objects of all rows -/

/-- The rows of a table whose keys are among `keys`, in their order -/
def rowsOf {ρ : Type} (table : String → Option ρ) (keys : List String) : List (String × ρ) :=
  keys.filterMap fun k => (table k).map fun row => (k, row)

/-- What `PluginInstance.all()` yields for a row -/
def instanceOf (row : String × InstanceRow) : Action L Ref := do
  let w ← world
  match w.instanceCache row.1 with
  | some i => pure i
  | none   => PluginInstance.fromRow row.1 row.2

/-- What `Client.all()` yields for a row -/
def clientOf (row : String × ClientRow) : Action L Ref := do
  let w ← world
  match w.clientCache row.1 with
  | some c => pure c
  | none   => Client.fromRow S row.1 row.2

/-- `[f(x) async for x in …]` -/
def collect {ρ : Type} (f : ρ → Action L Ref) : List ρ → Action L (List Ref)
  | []          => pure []
  | row :: rows => do
    let r ← f row
    let rs ← collect f rows
    pure (r :: rs)

/-! ### The start -/

def loadAll (ids : List String) : Action L Unit := do
  let w ← world
  let instances ← collect instanceOf (rowsOf w.instanceRows ids)
  gather (instances.map fun i => do
    let _ ← load S i
    pure ())

def startAll (users : List String) (env : Ref → ClientStartEnv) : Action L Unit := do
  let w ← world
  let clients ← collect (clientOf S) (rowsOf w.clientRows users)
  gather (clients.map fun c => Client.start S c 0 (env c))

def loadAgain (ids : List String) : Action L Unit := do
  let w ← world
  (rowsOf w.instanceRows ids).forM fun row => do
    let i ← instanceOf row
    let _ ← load S i
    pure ()

/-- `Maubot.start` once the databases are there; `ids` and `users` are the keys of the tables, and
    `env` is what the clients and their plugins meet. -/
def start (ids users : List String) (env : Ref → ClientStartEnv) : Action L Unit := do
  loadAll S ids
  startAll S users env
  loadAgain S ids

/-! ### Who runs -/

/-- Who runs, of the instances in `P`; `ls₀` are the loaders of the beginning. -/
structure SettledOn (ls₀ : L) (env : Ref → ClientStartEnv) (P : Ref → Prop) (w : World L) :
    Prop where
  sound    : Sound S (fun r : InstanceRow => r) w
  objects  : ∀ k, (w.instanceRows k).isSome = true → (w.instanceCache k).isSome = true
  loaded   : Loaded S ls₀ w.loaders
  equipped : ∀ i, Live w i → Equipped i w
  only     : ∀ i, Live w i → (w.instances.get i).started = true →
    (w.instances.get i).enabled = true ∧
      ∃ c, (w.instances.get i).client = some c ∧ (w.clients.get c).started = true
  all      : ∀ i c, Live w i → P i → (w.instances.get i).enabled = true →
    (w.instances.get i).client = some c → (w.clients.get c).started = true →
      (w.instances.get i).started = true ∨ Uncaught S ls₀ (w.instances.get i) ((env c).plugins i)

/-- Every row has its object, and every enabled instance its loader and its client.  An instance
    runs only if it is enabled and its client has started, and then it does, unless its start
    met something that it does not handle. -/
abbrev Settled (ls₀ : L) (env : Ref → ClientStartEnv) (w : World L) : Prop :=
  SettledOn S ls₀ env (fun _ => True) w

section Settled

variable {S} {ls₀ : L} {env : Ref → ClientStartEnv} {P : Ref → Prop} {w w' : World L} {c : Ref}
  {b : Bool}

/-- A world that is settled on some instances is settled on more, if what is added is at clients
    that rest. -/
theorem SettledOn.mono (h : SettledOn S ls₀ env P w) {Q : Ref → Prop}
    (hQ : ∀ i c, Live w i → (w.instances.get i).client = some c → (w.clients.get c).started = true →
      Q i → P i) : SettledOn S ls₀ env Q w :=
  { h with all := fun i c hi hq he hc hs => h.all i c hi (hQ i c hi hc hs hq) he hc hs }

/-! ### The start of an instance -/

/-- In a world whose links are right, a live instance has its row. -/
theorem stored_of_linked (h : Linked S w) {i : Ref} (hi : Live w i) : Stored i w :=
  ⟨h.rows i hi, h.clientRows i hi⟩

/-- **An instance is started** by its client. -/
theorem SettledOn.startInstance (h : SettledOn S ls₀ env P w) {i : Ref} (hi : Live w i)
    (hc : (w.instances.get i).client = some c) (hstarted : (w.clients.get c).started = true)
    (hw' : w' = ((PluginInstance.start S i ((env c).plugins i)).exec w).2) :
    SettledOn S ls₀ env (fun j => P j ∨ j = i) w' ∧ LinksUnchanged S w w' := by
  -- what `start` does to this instance; the others do not change
  obtain ⟨hlinks, henabled, hrunning, heven⟩ :=
    start_settled ((env c).plugins i) hw' (h.equipped i hi) fun hs => (h.only i hi hs).1
  have hothers : (Others L i).rel w w' := by
    rw [hw']
    exact admits_others.start _ w
  have hidentity : SameIdentity w w' := by
    rw [hw']
    exact identity_start i _ w
  have hlive (j : Ref) : Live w' j ↔ Live w j := hidentity.live j
  have hclient : (w'.instances.get i).client = some c :=
    (eq_of_links (hlinks.links i)).2.2.2.2.1.trans hc
  have hloaded : Loaded S ls₀ w'.loaders := by
    rw [hw']
    exact loads_start _ w ls₀ h.loaded
  refine ⟨⟨?_, fun k hk => ?_, hloaded, fun j hj => ?_, fun j hj hs => ?_,
    fun j d hj hp he hd hs => ?_⟩, hlinks⟩
  · rw [hw']
    exact h.sound.start hi _
  · rw [hidentity.cache]
    rw [hidentity.rows] at hk
    exact h.objects k hk
  · intro he
    by_cases hji : j = i
    · subst hji
      obtain ⟨-, -, -, hloader, hcl, -⟩ := eq_of_links (hlinks.links j)
      rw [Complete, hloader, hcl]
      exact h.equipped j hi (henabled he)
    · rw [hothers j hji] at he ⊢
      exact h.equipped j ((hlive j).mp hj) he
  · rw [hlinks.clients]
    by_cases hji : j = i
    · subst hji
      exact ⟨hrunning hs, c, hclient, hstarted⟩
    · rw [hothers j hji] at hs ⊢
      exact h.only j ((hlive j).mp hj) hs
  · -- it is even now, or an exception that is not caught left the start
    rw [hlinks.clients] at hs
    by_cases hji : j = i
    · subst hji
      obtain rfl : c = d := Option.some.inj (hclient.symm.trans hd)
      rcases heven with heven | ⟨-, e, hraised⟩
      · exact .inl (Eq.trans heven he)
      · refine .inr ((uncaught_start (stored_of_linked h.sound.linked hi) (h.equipped j hi)
          (fun hs => (h.only j hi hs).1) h.loaded hraised).congr ?_)
        exact (eq_of_links (hlinks.links j)).2.2.2.1
    · rw [hothers j hji] at he hd ⊢
      exact h.all j d ((hlive j).mp hj) (hp.resolve_right hji) he hd hs

/-- … and all of a list are. -/
theorem SettledOn.startInstances (h : SettledOn S ls₀ env P w) (l : List Ref)
    (hl : ∀ i ∈ l, Live w i ∧ (w.instances.get i).client = some c)
    (hstarted : (w.clients.get c).started = true) :
    SettledOn S ls₀ env (fun j => P j ∨ j ∈ l)
      ((gather (l.map fun i => PluginInstance.start S i ((env c).plugins i))).exec w).2 := by
  induction l generalizing P w with
  | nil => exact h.mono fun _ _ _ _ _ hp => hp.resolve_right List.not_mem_nil
  | cons i l ih =>
    obtain ⟨hi, hc⟩ := hl i List.mem_cons_self
    obtain ⟨hsettled, hlinks⟩ := h.startInstance hi hc hstarted rfl
    rw [List.map_cons, exec_gather_cons_snd]
    have hidentity := identity_start (S := S) i ((env c).plugins i) w
    refine (ih hsettled (fun j hj => ?_) (by rw [hlinks.clients]; exact hstarted)).mono
      fun j _ _ _ _ hp => ?_
    · obtain ⟨hlive, hclient⟩ := hl j (List.mem_cons_of_mem i hj)
      exact ⟨(hidentity.live j).mpr hlive, (eq_of_links (hlinks.links j)).2.2.2.2.1.trans hclient⟩
    · rcases hp with hp | hp
      · exact .inl (.inl hp)
      · rcases List.mem_cons.mp hp with rfl | hp
        · exact .inl (.inr rfl)
        · exact .inr hp

/-! ### The start of a client -/

/-- Only what clients keep to themselves has changed, and none has started or stopped. -/
def Still (L : Type) : Frame (World L) :=
  (Besides L).both (.ofView fun w => (fun c => (w.clients.get c).started, w.loaders))

/-- What leaves the started flags of instances and clients leaves a world settled. -/
theorem SettledOn.still (h : SettledOn S ls₀ env P w) (hw : (Still L).rel w w') :
    SettledOn S ls₀ env P w' := by
  obtain ⟨hbeside, hrest⟩ := hw
  have hstarted (c : Ref) : (w'.clients.get c).started = (w.clients.get c).started :=
    congrFun (congrArg Prod.fst hrest) c
  have hloaders : w'.loaders = w.loaders := congrArg Prod.snd hrest
  refine ⟨hbeside.sound h.sound, fun k hk => ?_, by rw [hloaders]; exact h.loaded,
    fun i hi => ?_, fun i hi hs => ?_, fun i c hi hp he hc hs => ?_⟩
  · rw [hbeside.instanceCache]
    rw [hbeside.instanceRows] at hk
    exact h.objects k hk
  · rw [Equipped, hbeside.instances]
    exact h.equipped i ((hbeside.live i).mp hi)
  · rw [hbeside.instances] at hs ⊢
    obtain ⟨he, c, hc, hs⟩ := h.only i ((hbeside.live i).mp hi) hs
    exact ⟨he, c, hc, (hstarted c).trans hs⟩
  · rw [hbeside.instances] at he hc ⊢
    rw [hstarted] at hs
    exact h.all i c ((hbeside.live i).mp hi) hp he hc hs

/-- A field of a client that is neither its id, its references nor its flag may be set. -/
theorem still_setClient (c : Ref) {f : Client → Client} (hid : ∀ cl, (f cl).id = cl.id)
    (href : ∀ cl, (f cl).references = cl.references)
    (hstarted : ∀ cl, (f cl).started = cl.started) : Keeps (Still L) (setClient c f) :=
  (beside_setClient c hid href).both fun w =>
    Prod.ext (funext (Store.view_modify w.clients c f Client.started hstarted)) rfl

/-- The row of a client may be written. -/
theorem still_update (c : Ref) : Keeps (Still L) (Client.update c) := by
  refine (beside_updateClient c).both ?_
  exact keeps_bind keeps_get fun _ => keeps_ite (keeps_pure ()) <|
    keeps_ite (keeps_modify fun _ => rfl) (keeps_throw _)

/-- A client that is disabled stays as it is otherwise. -/
theorem still_disable (c : Ref) : Keeps (Still L) (Client.disable c) :=
  keeps_bind (still_setClient c (fun _ => rfl) (fun _ => rfl) fun _ => rfl) fun _ => still_update c

/-- A start that fails and is scheduled again starts nothing. -/
theorem still_startFailed (c : Ref) (tryN : Nat) (e : PyExc) :
    Keeps (Still L) (Client.startFailed c tryN e) :=
  keeps_ite (still_disable c) <| keeps_ite (still_disable c)
    (still_setClient c (fun _ => rfl) (fun _ => rfl) fun _ => rfl)

/-- The sync filter is no flag. -/
theorem still_createFilter (c : Ref) (filter : Except PyExc String) :
    Keeps (Still L) (Client.createFilter c filter) :=
  keeps_bind keeps_get fun _ => keeps_when <| keeps_bind (keeps_outcome _) fun _ =>
    keeps_bind (still_setClient c (fun _ => rfl) (fun _ => rfl) fun _ => rfl) fun _ =>
    still_update c

/-- Neither is the crypto machine. -/
theorem still_startCrypto (c : Ref) (crypto : CryptoEnv) :
    Keeps (Still L) (Client.startCrypto c crypto) :=
  keeps_bind keeps_get fun _ => keeps_bind (keeps_outcome _) fun _ =>
    still_setClient c (fun _ => rfl) (fun _ => rfl) fun _ => rfl

/-- Nor the task that syncs. -/
theorem still_startSync (c : Ref) : Keeps (Still L) (Client.startSync c) :=
  (beside_startSync c).both <| keeps_bind keeps_get fun _ => keeps_when fun _ => rfl

/-- Nor the profile at the homeserver. -/
theorem still_updateRemoteProfile (c : Ref) (profile : ProfileAnswer) :
    Keeps (Still L) (Client.updateRemoteProfile c profile) := by
  refine keeps_bind (keeps_attempt (keeps_outcome _) _) fun r => ?_
  cases r with
  | ok p    => exact still_setClient c (fun _ => rfl) (fun _ => rfl) fun _ => rfl
  | error _ => exact keeps_pure ()

/-- A settled installation in which the client exists -/
def SettledWith (S : Setup L) (ls₀ : L) (env : Ref → ClientStartEnv) (c : Ref) (w : World L) :
    Prop :=
  Settled S ls₀ env w ∧ c < w.clients.next

/-- The same while one client is in the middle of its start. -/
theorem SettledWith.still (h : SettledWith S ls₀ env c w) (hw : (Still L).rel w w') :
    SettledWith S ls₀ env c w' :=
  ⟨h.1.still hw, Nat.lt_of_lt_of_eq h.2 hw.1.nextClient.symm⟩

/-- **A client that has started** starts the instances that refer to it. -/
theorem settled_startPlugins
    (h : SettledOn S ls₀ env (fun i => (w.instances.get i).client ≠ some c) w)
    (hc : c < w.clients.next) (hstarted : (w.clients.get c).started = true) :
    Settled S ls₀ env ((Client.startPlugins S c (env c).plugins).exec w).2 := by
  have hexact := h.sound.linked.clients c hc
  have hmem : ∀ i ∈ (w.clients.get c).references.elems,
      Live w i ∧ (w.instances.get i).client = some c := fun i hi => (hexact.mem_elems i).mp hi
  rw [Client.startPlugins, exec_get_bind]
  have hidentity : Keeps (Identity L) (gather ((w.clients.get c).references.elems.map fun i =>
      PluginInstance.start S i ((env c).plugins i))) :=
    keeps_gather fun m hm => by
      obtain ⟨i, -, rfl⟩ := List.mem_map.mp hm
      exact identity_start i _
  refine (h.startInstances _ hmem hstarted).mono fun i _ hi _ _ _ => ?_
  by_cases hclient : (w.instances.get i).client = some c
  · exact .inr ((hexact.mem_elems i).mpr ⟨((hidentity w).live i).mp hi, hclient⟩)
  · exact .inl hclient

/-- **Bringing a client up** -/
theorem settled_bringUp : Triple (SettledWith S ls₀ env c) (Client.bringUp S c (env c))
    (fun _ => Settled S ls₀ env) (Settled S ls₀ env) := by
  have hstill {α : Type} {m : Action L α} (hm : Keeps (Still L) m) :
      Triple (SettledWith S ls₀ env c) m (fun _ => SettledWith S ls₀ env c) (Settled S ls₀ env) :=
    (hm.triple fun _ _ hw h => h.still hw).post (fun _ _ h => h) fun _ h => h.1
  refine (hstill (still_createFilter c _)).bind fun _ => triple_read fun w _ => ?_
  refine (hstill (keeps_when (keeps_raiseIf _))).bind fun _ => ?_
  refine (hstill (keeps_when (keeps_raiseIf _))).bind fun _ => ?_
  refine (hstill (keeps_when (still_startCrypto c _))).bind fun _ => ?_
  refine (hstill (still_startSync c)).bind fun _ => ?_
  refine (hstill (still_updateRemoteProfile c _)).bind fun _ => ?_
  -- from here on the instances of the client are to be started
  have hset : Triple (SettledWith S ls₀ env c)
      (setClient c fun cl => { cl with started := true } : Action L Unit)
      (fun _ v => SettledOn S ls₀ env (fun i => (v.instances.get i).client ≠ some c) v ∧
        c < v.clients.next ∧ (v.clients.get c).started = true) (Settled S ls₀ env) := by
    refine triple_modify fun v hv => ?_
    have hbeside := beside_setClient (L := L) c (f := fun cl => { cl with started := true })
      (fun _ => rfl) (fun _ => rfl) v
    have hself := Store.get_modify_self v.clients c fun cl => { cl with started := true }
    refine ⟨⟨hbeside.sound hv.1.sound, hv.1.objects, hv.1.loaded, hv.1.equipped,
      fun i hi hs => ?_, fun i d hi hne he hd hs => ?_⟩, hv.2, by rw [hself]⟩
    · obtain ⟨he, d, hd, hs⟩ := hv.1.only i hi hs
      refine ⟨he, d, hd, ?_⟩
      by_cases hdc : d = c
      · rw [hdc, hself]
      · rw [Store.get_modify_ne _ _ hdc]
        exact hs
    · have hdc : d ≠ c := fun hdc => hne (hd.trans (congrArg some hdc))
      rw [Store.get_modify_ne _ _ hdc] at hs
      exact hv.1.all i d hi trivial he hd hs
  refine hset.bind fun _ => fun v hv => ?_
  have h := settled_startPlugins hv.1 hv.2.1 hv.2.2
  rcases hr : (Client.startPlugins S c (env c).plugins).exec v with ⟨e | _, v'⟩ <;> rw [hr] at h <;>
    exact h

/-- One try to start a client, which starts the instances at it last, leaves the world settled,
    failed or not. -/
theorem settled_tryStart (tryN : Nat) : Triple (SettledWith S ls₀ env c)
    (Client.tryStart S c tryN (env c)) (fun _ => Settled S ls₀ env) (Settled S ls₀ env) := by
  have hstill {m : Action L Unit} (hm : Keeps (Still L) m) :
      Triple (SettledWith S ls₀ env c) m (fun _ => Settled S ls₀ env) (Settled S ls₀ env) :=
    (hm.triple fun _ _ hw h => h.still hw).post (fun _ _ h => h.1) fun _ h => h.1
  refine triple_read fun w _ => ?_
  dsimp only
  split
  · exact hstill (keeps_pure ())
  split
  · exact hstill (keeps_pure ())
  have hanswer : Keeps (Still L) (attempt PyExc.isException do
      raiseIf (env c).versions
      outcome (env c).whoami) :=
    keeps_attempt (keeps_bind (keeps_raiseIf _) fun _ => keeps_outcome _) _
  refine ((hanswer.triple fun _ _ hw h => h.still hw).post (fun _ _ h => h) fun _ h => h.1).bind
    fun r => ?_
  cases r with
  | error e => exact hstill (still_startFailed c tryN e)
  | ok me   =>
    dsimp only
    split
    · exact hstill (still_disable c)
    split
    · exact hstill (still_disable c)
    · exact settled_bringUp

/-- **The start of a client**, however it goes -/
theorem settled_startClient (h : Settled S ls₀ env w) (hc : c < w.clients.next) :
    Settled S ls₀ env ((Client.start S c 0 (env c)).exec w).2 := by
  have hattempt := exec_attempt_snd PyExc.isException (Client.tryStart S c 0 (env c)) w
  have htry := (settled_tryStart (S := S) 0).final (s := w) ⟨h, hc⟩
  rw [← hattempt] at htry
  rw [Client.start, exec_bind]
  rcases hr : (attempt PyExc.isException (Client.tryStart S c 0 (env c))).exec w with ⟨e | _, v⟩ <;>
    rw [hr] at htry <;>
    exact htry

/-! ### New clients -/

/-- No client has started, and none of those that have been made. -/
def Resting (L : Type) : Frame (World L) where
  rel w w' := w.clients.next ≤ w'.clients.next ∧
    (∀ c, c < w.clients.next → (w'.clients.get c).started = (w.clients.get c).started) ∧
    ∀ c, w.clients.next ≤ c → c < w'.clients.next → (w'.clients.get c).started = false
  refl _ := ⟨Nat.le_refl _, fun _ _ => rfl, fun _ h h' => absurd h' (Nat.not_lt_of_le h)⟩
  trans {s t u} h h' := by
    refine ⟨Nat.le_trans h.1 h'.1, fun c hc => ?_, fun c hc hc' => ?_⟩
    · exact (h'.2.1 c (Nat.lt_of_lt_of_le hc h.1)).trans (h.2.1 c hc)
    · by_cases ht : c < t.clients.next
      · exact (h'.2.1 c ht).trans (h.2.2 c hc ht)
      · exact h'.2.2 c (Nat.le_of_not_lt ht) hc'

/-- Where no client has changed, the ones that rest still rest. -/
theorem resting_of_eq (h : w'.clients = w.clients) : (Resting L).rel w w' := by
  refine ⟨Nat.le_of_eq (by rw [h]), fun c _ => by rw [h], fun c hc hc' => ?_⟩
  rw [h] at hc'
  exact absurd hc' (Nat.not_lt_of_le hc)

/-- A client is not started when it is made from its row. -/
theorem started_fromRow (id : String) (row : ClientRow) (w : World L) :
    (((Client.fromRow S id row).exec w).2.clients.get w.clients.next).started = false := by
  let F : Frame (World L) := .ofView fun v => (v.clients.get w.clients.next).started
  have hset {f : Client → Client} (hf : ∀ cl, (f cl).started = cl.started) :
      Keeps F (setClient w.clients.next f) := fun v =>
    Store.view_modify v.clients _ f Client.started hf _
  have hprepare : Keeps F (Client.prepareCrypto w.clients.next) :=
    keeps_bind keeps_get fun _ => keeps_bind (keeps_forM fun _ _ _ => rfl) fun _ =>
      keeps_bind (hset fun _ => rfl) fun _ _ => rfl
  have hsetUp : Keeps F (Client.setUp S w.clients.next w.matrixClients.next) :=
    keeps_bind keeps_get fun _ => keeps_bind (keeps_when hprepare) fun _ =>
      keeps_bind (fun _ => rfl) fun _ => keeps_bind (keeps_when fun _ => rfl) fun _ =>
      keeps_bind (fun _ => rfl) fun _ => keeps_bind (fun _ => rfl) fun _ _ => rfl
  rw [Client.exec_fromRow_eq]
  have h := keeps_bind hsetUp (fun _ => keeps_pure w.clients.next) (Client.allocated id row w)
  exact Eq.trans h (congrArg Client.started (Client.allocated_client id row w))

/-- A client that is made from its row rests like those before it. -/
theorem resting_fromRow (id : String) (row : ClientRow) :
    Keeps (Resting L) (Client.fromRow S id row) := by
  intro w
  have hstarted := started_fromRow (S := S) id row w
  obtain ⟨w', he, hm⟩ := Client.exec_fromRow (S := S) id row w
  rw [he] at hstarted ⊢
  refine ⟨Nat.le_of_lt (by rw [hm.nextClient]; exact Nat.lt_succ_self _),
    fun c hc => by rw [hm.clients c hc], fun c hc hc' => ?_⟩
  rw [hm.nextClient] at hc'
  obtain rfl : c = w.clients.next := Nat.le_antisymm (Nat.le_of_lt_succ hc') hc
  exact hstarted

/-- Calls of instances start no client. -/
theorem resting_instances : AdmitsClients S (Resting L) where
  kept h := resting_of_eq h.clients
  getClient u w := by
    rcases Client.exec_get_made (S := S) u none none none w with he | ⟨row, rows, -, he⟩ <;> rw [he]
    · exact (Resting L).refl w
    · exact (Resting L).trans (resting_of_eq rfl)
        (resting_fromRow u row { w with clientRows := rows })
  setReferences c s w :=
    ⟨Nat.le_refl _, fun _ _ => Store.view_modify w.clients c (fun cl => { cl with references := s })
        Client.started (fun _ => rfl) _,
      fun _ h h' => absurd h' (Nat.not_lt_of_le h)⟩
  addHandler _ _ _ _ := resting_of_eq rfl
  removeHandlers _ := keeps_bind keeps_get fun _ => keeps_forM fun _ _ _ => resting_of_eq rfl

/-- The rows of the users are as before. -/
abbrev UserRows (L : Type) : Frame (World L) := .ofView fun w => w.clientRows

/-- Calls of instances leave them alone. -/
theorem userRows_instances : AdmitsClients S (UserRows L) where
  kept h := h.clientRows
  getClient u w := by
    rcases Client.exec_get (S := S) u w with ⟨c, -, h⟩ | ⟨row, w', -, -, h, hm⟩ | ⟨-, -, h⟩ <;>
      rw [h]
    · rfl
    · show w'.clientRows = w.clientRows
      rw [hm.others]
    · rfl
  setReferences _ _ _ := rfl
  addHandler _ _ _ _ := rfl
  removeHandlers _ := keeps_bind keeps_get fun _ => keeps_forM fun _ _ _ => rfl

/-! ### The objects -/

/-- The objects of before are still in the cache, and rows and loaders are those of before. -/
structure Grown (w w' : World L) : Prop where
  cache   : ∀ k i, w.instanceCache k = some i → w'.instanceCache k = some i
  rows    : w'.instanceRows = w.instanceRows
  users   : w'.clientRows = w.clientRows
  loaders : w'.loaders = w.loaders

/-- No step adds nothing. -/
theorem Grown.refl (w : World L) : Grown w w := ⟨fun _ _ h => h, rfl, rfl, rfl⟩

/-- What is added in two steps is added. -/
theorem Grown.trans {w'' : World L} (h : Grown w w') (h' : Grown w' w'') : Grown w w'' :=
  ⟨fun k i hk => h'.cache k i (h.cache k i hk), h'.rows.trans h.rows, h'.users.trans h.users,
    h'.loaders.trans h.loaders⟩

/-- Nothing runs yet. -/
structure Fresh (S : Setup L) (w : World L) : Prop where
  sound     : Sound S (fun r : InstanceRow => r) w
  instances : ∀ i, Live w i → (w.instances.get i).started = false
  clients   : ∀ c, c < w.clients.next → (w.clients.get c).started = false

/-- Each row of an instance gives an object, found in the cache or made, and nothing is raised. -/
theorem exec_instanceOf (h : Fresh S w) {k : String} {row : InstanceRow}
    (hrow : w.instanceRows k = some row) :
    ∃ i w', (instanceOf (k, row)).exec w = (.ok i, w') ∧ Fresh S w' ∧ Grown w w' ∧
      w'.instanceCache k = some i := by
  rw [instanceOf, exec_get_bind]
  dsimp only
  cases hcache : w.instanceCache k with
  | some i => exact ⟨i, w, rfl, h, .refl w, hcache⟩
  | none   =>
    refine ⟨_, _, PluginInstance.exec_fromRow k row w, ⟨h.sound.fromRow hcache hrow, fun j hj => ?_,
      h.clients⟩, ⟨fun k' i hk' => ?_, rfl, rfl, rfl⟩, Function.update_self _ _ _⟩
    · rcases (live_fromRow k row w j).mp hj with hj | rfl
      · rw [get_fromRow_of_lt hj.1]
        exact h.instances j hj
      · rw [get_fromRow_self]
    · have hne : k' ≠ k := by
        rintro rfl
        rw [hcache] at hk'
        cases hk'
      exact (Function.update_of_ne hne _ _).trans hk'

/-- So do all rows: every one has an object then, and every object a row. -/
theorem exec_collect_instances (h : Fresh S w) (rows : List (String × InstanceRow))
    (hrows : ∀ r ∈ rows, w.instanceRows r.1 = some r.2) :
    ∃ l w', (collect instanceOf rows).exec w = (.ok l, w') ∧ Fresh S w' ∧ Grown w w' ∧
      (∀ r ∈ rows, ∃ i ∈ l, w'.instanceCache r.1 = some i) ∧
      ∀ i ∈ l, ∃ k, w'.instanceCache k = some i := by
  induction rows generalizing w with
  | nil =>
    exact ⟨[], w, rfl, h, .refl w, fun _ h => absurd h List.not_mem_nil,
      fun _ h => absurd h List.not_mem_nil⟩
  | cons r rows ih =>
    obtain ⟨i, w₁, he, h₁, hgrown, hi⟩ := exec_instanceOf h (hrows r List.mem_cons_self)
    obtain ⟨l, w₂, he', h₂, hgrown', hl, hcached⟩ := ih h₁ fun r' hr' => by
      rw [hgrown.rows]
      exact hrows r' (List.mem_cons_of_mem r hr')
    refine ⟨i :: l, w₂, ?_, h₂, hgrown.trans hgrown', fun r' hr' => ?_, fun j hj => ?_⟩
    · rw [collect, exec_bind_ok he, exec_bind_ok he']
      rfl
    · rcases List.mem_cons.mp hr' with rfl | hr'
      · exact ⟨i, List.mem_cons_self, hgrown'.cache _ _ hi⟩
      · obtain ⟨j, hj, hcache⟩ := hl r' hr'
        exact ⟨j, List.mem_cons_of_mem i hj, hcache⟩
    · rcases List.mem_cons.mp hj with rfl | hj
      · exact ⟨r.1, hgrown'.cache _ _ hi⟩
      · exact hcached j hj

/-! ### The instances are loaded -/

/-- Whatever is loaded, an instance that has its objects keeps them. -/
theorem equipped_load {i j : Ref} (hi : Stored i w) (hj : j = i ∨ Equipped j w)
    (he : (load S i).exec w = (.ok b, w')) : Equipped j w' := by
  by_cases hji : j = i
  · have h := load_equipped (S := S) w hi
    rw [he] at h
    rw [hji]
    exact h
  · have h := (admits_others (S := S) (i := i)).load w j hji
    rw [he] at h
    rw [Equipped, h]
    exact hj.resolve_left hji

/-- `load` of a live instance raises nothing. -/
theorem exec_load (h : Linked S w) {i : Ref} (hi : Live w i) :
    ∃ b w', (load S i).exec w = (.ok b, w') := by
  obtain ⟨b, w', he, -⟩ := load_equipped.returns (stored_of_linked h hi)
  exact ⟨b, w', he⟩

/-- It leaves a world of loaded instances that are not started. -/
theorem Fresh.load (h : Fresh S w) {i : Ref} (hi : Live w i)
    (he : (load S i).exec w = (.ok b, w')) : Fresh S w' := by
  have hsound := h.sound.load hi
  have hidentity := identity_load (S := S) i w
  have hothers := (admits_others (S := S) (i := i)).load w
  have hfalls := (falls_load (S := S) (i := i) w).1
  have hresting := (resting_instances.admits i).load (S := S) w
  rw [he] at hsound hidentity hothers hfalls hresting
  refine ⟨hsound, fun j hj => ?_, fun c hc => ?_⟩
  · have hlive := (hidentity.live j).mp hj
    by_cases hji : j = i
    · rw [hji]
      exact hfalls.trans (h.instances i hi)
    · rw [hothers j hji]
      exact h.instances j hlive
  · by_cases hold : c < w.clients.next
    · exact (hresting.2.1 c hold).trans (h.clients c hold)
    · exact hresting.2.2 c (Nat.le_of_not_lt hold) hc

/-- All of them are loaded. -/
theorem exec_gather_load (h : Fresh S w) (l : List Ref) (hl : ∀ i ∈ l, Live w i)
    (hP : ∀ i, P i → Equipped i w) :
    ∃ w', (gather (l.map fun i => do
        let _ ← load S i
        pure ())).exec w = (.ok (), w') ∧
      Fresh S w' ∧ SameIdentity w w' ∧ ∀ i, P i ∨ i ∈ l → Equipped i w' := by
  induction l generalizing w P with
  | nil => exact ⟨w, rfl, h, .refl w, fun i hi => hP i (hi.resolve_right List.not_mem_nil)⟩
  | cons i l ih =>
    have hi := hl i List.mem_cons_self
    obtain ⟨b, w₁, he⟩ := exec_load h.sound.linked hi
    have hidentity : SameIdentity w w₁ := by
      have hload := identity_load (S := S) i w
      rw [he] at hload
      exact hload
    have hstored := stored_of_linked h.sound.linked hi
    obtain ⟨w', hrest, h', hidentity', hP'⟩ := ih (P := fun j => P j ∨ j = i) (h.load hi he)
      (fun j hj => (hidentity.live j).mpr (hl j (List.mem_cons_of_mem i hj)))
      fun j hj => equipped_load hstored (hj.symm.imp_right (hP j)) he
    refine ⟨w', ?_, h', hidentity.trans hidentity', fun j hj => hP' j ?_⟩
    · rw [List.map_cons, gather, exec_bind, exec_attempt, exec_bind_ok he]
      exact hrest
    · rcases hj with hj | hj
      · exact .inl (.inl hj)
      · rcases List.mem_cons.mp hj with rfl | hj
        · exact .inl (.inr rfl)
        · exact .inr hj

/-- The rows of a table are those under its keys. -/
theorem mem_rowsOf {ρ : Type} {table : String → Option ρ} {keys : List String} {r : String × ρ} :
    r ∈ rowsOf table keys ↔ r.1 ∈ keys ∧ table r.1 = some r.2 := by
  obtain ⟨k, row⟩ := r
  rw [rowsOf, List.mem_filterMap]
  constructor
  · rintro ⟨k', hk', h⟩
    obtain ⟨row', hrow', heq⟩ := Option.map_eq_some_iff.mp h
    cases heq
    exact ⟨hk', hrow'⟩
  · rintro ⟨hk, hrow⟩
    exact ⟨k, hk, by rw [hrow]; rfl⟩

/-- At launch nothing is loaded. -/
theorem Fresh.of_launch (h : Launch w) : Fresh S w where
  sound := h.sound
  instances i hi := by
    have hlt := hi.1
    rw [h.instances] at hlt
    exact absurd hlt (Nat.not_lt_zero i)
  clients c hc := by
    rw [h.clients] at hc
    exact absurd hc (Nat.not_lt_zero c)

/-- **The first loads** leave every instance with its objects, and none of them runs. -/
theorem exec_loadAll (env : Ref → ClientStartEnv) (h : Launch w) {ids : List String}
    (hids : ∀ k, (w.instanceRows k).isSome = true → k ∈ ids) :
    ∃ w', (loadAll S ids).exec w = (.ok (), w') ∧ Settled S w.loaders env w' ∧
      w'.clientRows = w.clientRows ∧
      ∀ c, c < w'.clients.next → (w'.clients.get c).started = false := by
  obtain ⟨l, w₁, hcollect, h₁, hgrown, hl, hcached⟩ :=
    exec_collect_instances (S := S) (.of_launch h) (rowsOf w.instanceRows ids)
      fun r hr => (mem_rowsOf.mp hr).2
  have hlive : ∀ i ∈ l, Live w₁ i := fun i hi => by
    obtain ⟨k, hk⟩ := hcached i hi
    exact (h₁.sound.tracked.cached k i hk).1
  -- the rows that have been read are all rows
  have hrow : ∀ k, (w₁.instanceRows k).isSome = true → ∃ i ∈ l, w₁.instanceCache k = some i := by
    intro k hk
    rw [hgrown.rows] at hk
    obtain ⟨row, hrow⟩ := Option.isSome_iff_exists.mp hk
    exact hl (k, row) (mem_rowsOf.mpr ⟨hids k hk, hrow⟩)
  obtain ⟨w', hgather, h', hidentity, hequipped⟩ :=
    exec_gather_load (P := fun _ => False) h₁ l hlive fun _ hi => hi.elim
  have hkeep : Keeps ((UserRows L).both (Loaders L)) (gather (l.map fun i => do
      let _ ← load S i
      pure ())) :=
    keeps_gather fun m hm => by
      obtain ⟨i, -, rfl⟩ := List.mem_map.mp hm
      exact keeps_bind (((userRows_instances.admits i).load).both loaders_load) fun _ =>
        keeps_pure ()
  obtain ⟨hrows, hloaders⟩ := hkeep w₁
  rw [hgather] at hrows hloaders
  have hloaded : Loaded S w.loaders w'.loaders := by
    rw [show w'.loaders = w₁.loaders from hloaders, hgrown.loaders]
    exact .start
  refine ⟨w', ?_, ⟨h'.sound, fun k hk => ?_, hloaded, fun i hi => ?_, fun i hi hs => ?_,
    fun i c hi _ _ hc hs => ?_⟩, Eq.trans hrows hgrown.users, h'.clients⟩
  · rw [loadAll, exec_get_bind, exec_bind_ok hcollect]
    exact hgather
  · rw [hidentity.rows] at hk
    obtain ⟨i, -, hi⟩ := hrow k hk
    rw [hidentity.cache, hi]
    rfl
  · have hi₁ := (hidentity.live i).mp hi
    have hcache := h₁.sound.tracked.live i hi₁
    obtain ⟨j, hj, hcache'⟩ := hrow _ (h₁.sound.tracked.cached _ i hcache).2.2
    obtain rfl : i = j := Option.some.inj (hcache.symm.trans hcache')
    exact hequipped i (.inr hj)
  · rw [h'.instances i hi] at hs
    cases hs
  · rw [h'.clients c (h'.sound.linked.allocated i c hi hc)] at hs
    cases hs

/-! ### What one sees of a client -/

/-- A client without the instances that refer to it -/
def look (cl : Client) : Client := { cl with references := [] }

/-- The objects of the clients stay, and those in `P` look as before. -/
def Looks (L : Type) (P : Ref → Prop) : Frame (World L) where
  rel w w' := w.clients.next ≤ w'.clients.next ∧
    (∀ u c, w.clientCache u = some c → w'.clientCache u = some c) ∧
    ∀ c, c < w.clients.next → P c → look (w'.clients.get c) = look (w.clients.get c)
  refl _ := ⟨Nat.le_refl _, fun _ _ h => h, fun _ _ _ => rfl⟩
  trans h h' := ⟨Nat.le_trans h.1 h'.1, fun u c hc => h'.2.1 u c (h.2.1 u c hc),
    fun c hc hp => (h'.2.2 c (Nat.lt_of_lt_of_le hc h.1) hp).trans (h.2.2 c hc hp)⟩

/-- What leaves the clients and their cache leaves how they look. -/
theorem looks_of_eq (hclients : w'.clients = w.clients) (hcache : w'.clientCache = w.clientCache) :
    (Looks L P).rel w w' :=
  ⟨Nat.le_of_eq (by rw [hclients]), fun _ _ h => by rw [hcache]; exact h,
    fun _ _ _ => by rw [hclients]⟩

/-- A new client looks like its row and does not disturb the others. -/
theorem looks_made {u : String} {row : ClientRow} (hcache : w.clientCache u = none)
    (hm : Client.Made u row w w') : (Looks L P).rel w w' := by
  refine ⟨Nat.le_of_lt (by rw [hm.nextClient]; exact Nat.lt_succ_self _), fun v c hc => ?_,
    fun c hc _ => by rw [hm.clients c hc]⟩
  have hne : v ≠ u := by
    rintro rfl
    rw [hcache] at hc
    cases hc
  rw [hm.others]
  exact (Function.update_of_ne hne _ _).trans hc

/-! ### The clients are started -/

/-- A client that is made, with nothing at it, leaves the world settled. -/
theorem settled_made (h : Settled S ls₀ env w) {u : String} {row : ClientRow}
    (hrow : w.clientRows u = some row) (hm : Client.Made u row w w') : Settled S ls₀ env w' := by
  have hinst : w'.instances = w.instances := by rw [hm.others]
  have hlive (j : Ref) : Live w' j ↔ Live w j := by rw [Live, Live, hinst]
  -- a client that an instance has is an old one
  have hclient {i c : Ref} (hi : Live w i) (hc : (w.instances.get i).client = some c) :
      w'.clients.get c = w.clients.get c :=
    hm.clients c (h.sound.linked.allocated i c hi hc)
  refine ⟨sound_made h.sound hrow hm, fun k hk => ?_, by rw [hm.others]; exact h.loaded,
    fun i hi => ?_, fun i hi hs => ?_, fun i c hi hp he hc hs => ?_⟩
  · rw [hm.others] at hk ⊢
    exact h.objects k hk
  · rw [Equipped, hinst]
    exact h.equipped i ((hlive i).mp hi)
  · rw [hinst] at hs ⊢
    obtain ⟨he, c, hc, hs⟩ := h.only i ((hlive i).mp hi) hs
    exact ⟨he, c, hc, by rw [hclient ((hlive i).mp hi) hc]; exact hs⟩
  · rw [hinst] at he hc ⊢
    rw [hclient ((hlive i).mp hi) hc] at hs
    exact h.all i c ((hlive i).mp hi) hp he hc hs

/-- Each row of a client gives an object, found in the cache or made, in a settled world. -/
theorem exec_clientOf (h : Settled S ls₀ env w) {u : String} {row : ClientRow}
    (hrow : w.clientRows u = some row) :
    ∃ c w', (clientOf S (u, row)).exec w = (.ok c, w') ∧ Settled S ls₀ env w' ∧
      w'.clientRows = w.clientRows ∧ (Resting L).rel w w' ∧ (Looks L fun _ => True).rel w w' ∧
      w'.clientCache u = some c := by
  rw [clientOf, exec_get_bind]
  dsimp only
  cases hcache : w.clientCache u with
  | some c => exact ⟨c, w, rfl, h, rfl, (Resting L).refl w, (Looks L _).refl w, hcache⟩
  | none   =>
    have hresting := resting_fromRow (S := S) u row w
    obtain ⟨w', he, hm⟩ := Client.exec_fromRow (S := S) u row w
    rw [he] at hresting
    refine ⟨_, w', he, settled_made h hrow hm, by rw [hm.others], hresting,
      looks_made hcache hm, ?_⟩
    rw [hm.others]
    exact Function.update_self _ _ _

/-- So do all rows, and the clients that are made rest. -/
theorem exec_collect_clients (h : Settled S ls₀ env w) (rows : List (String × ClientRow))
    (hrows : ∀ r ∈ rows, w.clientRows r.1 = some r.2) :
    ∃ l w', (collect (clientOf S) rows).exec w = (.ok l, w') ∧ Settled S ls₀ env w' ∧
      (Resting L).rel w w' ∧ (Looks L fun _ => True).rel w w' ∧ (∀ c ∈ l, c < w'.clients.next) ∧
      ∀ r ∈ rows, ∃ c ∈ l, w'.clientCache r.1 = some c := by
  induction rows generalizing w with
  | nil =>
    exact ⟨[], w, rfl, h, (Resting L).refl w, (Looks L _).refl w,
      fun _ h => absurd h List.not_mem_nil, fun _ h => absurd h List.not_mem_nil⟩
  | cons r rows ih =>
    obtain ⟨c, w₁, he, h₁, hsame, hresting, hlooks, hc⟩ :=
      exec_clientOf h (hrows r List.mem_cons_self)
    obtain ⟨l, w₂, he', h₂, hresting', hlooks', hl, hcached⟩ := ih h₁ fun r' hr' => by
      rw [hsame]
      exact hrows r' (List.mem_cons_of_mem r hr')
    have hc' := hlooks'.2.1 _ _ hc
    refine ⟨c :: l, w₂, ?_, h₂, (Resting L).trans hresting hresting',
      (Looks L _).trans hlooks hlooks', fun d hd => ?_, fun r' hr' => ?_⟩
    · rw [collect, exec_bind_ok he, exec_bind_ok he']
      rfl
    · rcases List.mem_cons.mp hd with rfl | hd
      · exact (h₂.sound.linked.clientCache _ _ hc').2.1
      · exact hl d hd
    · rcases List.mem_cons.mp hr' with rfl | hr'
      · exact ⟨c, List.mem_cons_self, hc'⟩
      · obtain ⟨d, hd, hcache⟩ := hcached r' hr'
        exact ⟨d, List.mem_cons_of_mem c hd, hcache⟩

/-- All clients may be started side by side. -/
theorem settled_gather_start (h : Settled S ls₀ env w) (l : List Ref)
    (hl : ∀ c ∈ l, c < w.clients.next) :
    Settled S ls₀ env ((gather (l.map fun c => Client.start S c 0 (env c))).exec w).2 := by
  induction l generalizing w with
  | nil => exact h
  | cons c l ih =>
    have hc := hl c List.mem_cons_self
    rw [List.map_cons, exec_gather_cons_snd]
    refine ih (settled_startClient h hc) fun d hd => ?_
    have holder := (admits_keeping.start (S := S) (c := c) 0 (env c) w h.sound hc
      fun _ h => h.elim).2
    exact Nat.lt_of_lt_of_le (hl d (List.mem_cons_of_mem c hd)) holder.clients

/-- The start of all rows' clients leaves the world settled. -/
theorem settled_startAll (h : Settled S ls₀ env w) (users : List String) :
    Settled S ls₀ env ((startAll S users env).exec w).2 := by
  obtain ⟨l, w', he, h', -, -, hl, -⟩ := exec_collect_clients h (rowsOf w.clientRows users)
    fun r hr => (mem_rowsOf.mp hr).2
  rw [startAll, exec_get_bind, exec_bind_ok he]
  exact settled_gather_start h' l hl

/-! ### The instances are loaded again -/

/-- An instance that is loaded later leaves it settled. -/
theorem Settled.load (h : Settled S ls₀ env w) {i : Ref} (hi : Live w i)
    (he : (load S i).exec w = (.ok b, w')) : Settled S ls₀ env w' := by
  have hsound := h.sound.load hi
  have hidentity := identity_load (S := S) i w
  have hothers := (admits_others (S := S) (i := i)).load w
  have hfalls := falls_load (S := S) (i := i) w
  have hresting := (resting_instances.admits i).load (S := S) w
  have hheld := @held_load_of_complete L S i w
  have hloaders := loaders_load (S := S) (i := i) w
  rw [he] at hsound hidentity hothers hfalls hresting hheld hloaders
  have hstored := stored_of_linked h.sound.linked hi
  have hlive (j : Ref) : Live w' j ↔ Live w j := hidentity.live j
  -- an instance without its objects is disabled, and does not run
  have hdisabled (hincomplete : ¬ (w.instances.get i).Complete) :
      ¬ (w.instances.get i).enabled = true := fun henabled =>
    hincomplete (h.equipped i hi henabled)
  refine ⟨hsound, fun k hk => ?_, by rw [show w'.loaders = w.loaders from hloaders]; exact h.loaded,
    fun j hj => ?_, fun j hj hs => ?_, fun j c hj _ hen hc hs => ?_⟩
  · rw [hidentity.rows] at hk
    rw [hidentity.cache]
    exact h.objects k hk
  · exact equipped_load hstored (.inr (h.equipped j ((hlive j).mp hj))) he
  · have hsame : (w'.instances.get j).enabled = (w.instances.get j).enabled ∧
        (w'.instances.get j).client = (w.instances.get j).client ∧
        (w.instances.get j).started = true := by
      by_cases hji : j = i
      · subst hji
        rw [hfalls.1] at hs
        have hcomplete : (w.instances.get j).Complete := h.equipped j hi (h.only j hi hs).1
        have hkept := hheld hcomplete
        exact ⟨congrArg (·.1.2) hkept, congrArg (·.2.2) hkept, hs⟩
      · rw [hothers j hji] at hs ⊢
        exact ⟨rfl, rfl, hs⟩
    obtain ⟨hen, hcl, hs⟩ := hsame
    have hold := (hlive j).mp hj
    obtain ⟨he', c, hc, hstarted⟩ := h.only j hold hs
    refine ⟨hen.trans he', c, hcl.trans hc, ?_⟩
    exact (hresting.2.1 c (h.sound.linked.allocated j c hold hc)).trans hstarted
  · have hold := (hlive j).mp hj
    have hsame : (w.instances.get j).enabled = true ∧ (w.instances.get j).client = some c ∧
        (w'.instances.get j).started = (w.instances.get j).started ∧
        (w'.instances.get j).loader = (w.instances.get j).loader := by
      by_cases hji : j = i
      · subst hji
        have henabled := hfalls.2 hen
        have hkept := hheld (h.equipped j hi henabled)
        exact ⟨henabled, (congrArg (·.2.2) hkept).symm.trans hc, hfalls.1, congrArg (·.2.1) hkept⟩
      · rw [hothers j hji] at hen hc ⊢
        exact ⟨hen, hc, rfl, rfl⟩
    obtain ⟨hen, hc, hstarted, hloader⟩ := hsame
    rw [hresting.2.1 c (h.sound.linked.allocated j c hold hc)] at hs
    rw [hstarted]
    exact (h.all j c hold trivial hen hc hs).imp_right fun hraised => hraised.congr hloader

/-- So do all that are loaded again. -/
theorem settled_loadAgain (h : Settled S ls₀ env w) (ids : List String) :
    Settled S ls₀ env ((loadAgain S ids).exec w).2 := by
  let Q (v : World L) : Prop :=
    Settled S ls₀ env v ∧ ∀ k, (v.instanceRows k).isSome = (w.instanceRows k).isSome
  have hload : ∀ r ∈ rowsOf w.instanceRows ids, Triple Q (do
        let i ← instanceOf r
        let _ ← load S i
        pure ()) (fun _ => Q) Q := by
    rintro r hr v ⟨hv, hrows⟩
    have hrow : (v.instanceRows r.1).isSome = true := by
      rw [hrows, (mem_rowsOf.mp hr).2]
      rfl
    -- every row has its object
    obtain ⟨i, hi⟩ := Option.isSome_iff_exists.mp (hv.objects r.1 hrow)
    have hlive := (hv.sound.tracked.cached r.1 i hi).1
    have hof : (instanceOf r).exec v = (.ok i, v) := by
      rw [instanceOf, exec_get_bind, hi]
      rfl
    obtain ⟨b, v', he⟩ := exec_load hv.sound.linked hlive
    rw [exec_bind_ok hof, exec_bind_ok he]
    have hidentity := identity_load (S := S) i v
    rw [he] at hidentity
    exact ⟨Settled.load hv hlive he, fun k => (hidentity.rows k).trans (hrows k)⟩
  rw [loadAgain, exec_get_bind]
  exact ((triple_forM hload).final ⟨h, fun _ => rfl⟩).1

/-! ### The clients that have been tried -/

/-- Calls of instances change no look. -/
theorem looks_instances : AdmitsClients S (Looks L P) where
  kept h := looks_of_eq h.clients h.clientCache
  getClient u w := by
    rcases Client.exec_get (S := S) u w with ⟨c, -, h⟩ | ⟨row, w', hcache, -, h, hm⟩ | ⟨-, -, h⟩ <;>
      rw [h]
    · exact (Looks L P).refl w
    · exact looks_made hcache hm
    · exact (Looks L P).refl w
  setReferences c s w := ⟨Nat.le_refl _, fun _ _ h => h, fun _ _ _ =>
    Store.view_modify w.clients c (fun cl => { cl with references := s }) look (fun _ => rfl) _⟩
  addHandler _ _ _ _ := looks_of_eq rfl rfl
  removeHandlers _ := keeps_bind keeps_get fun _ => keeps_forM fun _ _ _ => looks_of_eq rfl rfl

/-- The methods of a client change no look but its own. -/
theorem looks_client (d : Ref) : Client.Admits S d (Looks L (· ≠ d)) := by
  have hset (f : Client → Client) : Keeps (Looks L (· ≠ d)) (setClient d f) := fun w =>
    ⟨Nat.le_refl _, fun _ _ h => h,
      fun c _ hc => congrArg look (Store.get_modify_ne w.clients f hc)⟩
  have hstart (env : Ref → StartEnv) : Keeps (Looks L (· ≠ d)) (Client.startPlugins S d env) :=
    keeps_bind keeps_get fun _ => keeps_gather fun m hm => by
      obtain ⟨i, -, rfl⟩ := List.mem_map.mp hm
      exact (looks_instances.admits i).start (env i)
  have hstop (env : Ref → StopEnv) : Keeps (Looks L (· ≠ d)) (Client.stopPlugins d env) :=
    keeps_bind keeps_get fun _ => keeps_gather fun m hm => by
      obtain ⟨i, -, rfl⟩ := List.mem_map.mp hm
      exact ((looks_instances (S := S)).admits i).stop (env i)
  exact
    { assign := fun f _ _ _ _ => hset f
      setRow := fun f _ _ => hset _
      setAutojoin := fun w b _ => by
        cases b with
        | true  => exact keeps_bind (fun _ => looks_of_eq rfl rfl) (fun _ => hset _) w
        | false => exact keeps_bind (fun _ => looks_of_eq rfl rfl) (fun _ => hset _) w
      setOnline := fun w b => keeps_bind (fun _ => looks_of_eq rfl rfl) (fun _ => hset _) w
      update := keeps_bind keeps_get fun _ => keeps_ite (keeps_pure ()) <|
        keeps_ite (keeps_modify fun _ => looks_of_eq rfl rfl) (keeps_throw _)
      startSync := keeps_bind keeps_get fun _ => keeps_when fun _ => looks_of_eq rfl rfl
      stopSync := keeps_bind keeps_get fun _ _ => looks_of_eq rfl rfl
      startPlugins := hstart
      stopPlugins := hstop }

/-- The homeserver says that the token belongs to this user and this device. -/
def Confirmed (env : ClientStartEnv) (cl : Client) : Prop :=
  env.versions = none ∧ ∃ me, env.whoami = .ok me ∧ me.userId = cl.id ∧
    Client.otherDevice me cl.row.deviceId = false

/-- The client runs, or is disabled, or the homeserver has not answered and a retry is scheduled. -/
inductive Decided (env : ClientStartEnv) (cl : Client) : Prop
  | runs (hstarted : cl.started = true)
  | disabled (henabled : cl.row.enabled = false)
  | waits (hretries : cl.retries ≠ [])
      (hanswer : ∀ me, ¬ (env.versions = none ∧ env.whoami = .ok me))

/-- Something else keeps the client from being started, and there will be no other try. -/
inductive Refused (env : ClientStartEnv) (cl : Client) : Prop
  /-- There is no filter yet, and the homeserver makes none. -/
  | filter {e : PyExc} (hnone : cl.row.filterId = "") (he : env.createFilter = .error e)
  /-- The display name cannot be set. -/
  | displayname {e : PyExc} (hset : cl.row.displayname ≠ "disable")
      (he : env.setDisplayname = some e)
  /-- The avatar cannot be set. -/
  | avatarUrl {e : PyExc} (hset : cl.row.avatarUrl ≠ "disable") (he : env.setAvatarUrl = some e)
  /-- The encryption cannot be enabled. -/
  | crypto {e : PyExc} (hcrypto : cl.crypto.isSome = true)
      (he : env.crypto.run cl.row.deviceId = .error e)
  /-- The row cannot be written. -/
  | row (hnull : cl.row.notNull = false)
  /-- What a request raises is no `Exception`. -/
  | base {e : PyExc}
      (he : env.versions = some e ∨ env.whoami = .error e ∨ env.profile = .error e)
      (hbase : e.isException = false)

/-- What has become of the client -/
def Tried (env : ClientStartEnv) (cl : Client) : Prop :=
  (cl.started = true → Confirmed env cl) ∧ (Decided env cl ∨ Refused env cl)

/-- What two clients that look the same have in common. -/
theorem eq_of_look {a b : Client} (h : look a = look b) : a.id = b.id ∧ a.started = b.started ∧
    a.row = b.row ∧ a.retries = b.retries ∧ a.crypto = b.crypto :=
  ⟨(congrArg Client.id h :), (congrArg Client.started h :), (congrArg Client.row h :),
    (congrArg Client.retries h :), (congrArg Client.crypto h :)⟩

/-- Whether a client has been tried is seen from how it looks. -/
theorem tried_of_look {cenv : ClientStartEnv} {a b : Client} (h : look a = look b)
    (hb : Tried cenv b) : Tried cenv a := by
  obtain ⟨hid, hstarted, hrow, hretries, hcrypto⟩ := eq_of_look h
  obtain ⟨hconfirmed, htried⟩ := hb
  refine ⟨?_, htried.imp (fun h => ?_) fun h => ?_⟩
  · rw [hstarted, Confirmed, hid, hrow]
    exact hconfirmed
  · cases h with
    | runs h          => exact .runs (hstarted.trans h)
    | disabled h      => exact .disabled (by rw [hrow]; exact h)
    | waits h hanswer => exact .waits (by rw [hretries]; exact h) hanswer
  · cases h with
    | filter hnone he     => exact .filter (by rw [hrow]; exact hnone) he
    | displayname hset he => exact .displayname (by rw [hrow]; exact hset) he
    | avatarUrl hset he   => exact .avatarUrl (by rw [hrow]; exact hset) he
    | crypto hsome he     =>
      exact .crypto (by rw [hcrypto]; exact hsome) (by rw [hrow]; exact he)
    | row hnull           => exact .row (by rw [hrow]; exact hnull)
    | base he hbase       => exact .base he hbase

section Tries

variable {cenv : ClientStartEnv} {α : Type}

/-- The client exists, and runs only if the homeserver has confirmed it. -/
def Known (cenv : ClientStartEnv) (c : Ref) (w : World L) : Prop :=
  c < w.clients.next ∧ ((w.clients.get c).started = true → Confirmed cenv (w.clients.get c))

/-- The homeserver has confirmed the client. -/
def Confirms (cenv : ClientStartEnv) (c : Ref) (w : World L) : Prop :=
  c < w.clients.next ∧ Confirmed cenv (w.clients.get c)

/-- A client whose credentials are refused has been tried. -/
theorem Confirms.refused {w : World L} (h : Confirms cenv c w)
    (hr : Refused cenv (w.clients.get c)) : Tried cenv (w.clients.get c) :=
  ⟨fun _ => h.2, .inr hr⟩

/-- The client is assigned something else than what the homeserver has confirmed. -/
theorem Confirms.assign {w : World L} (h : Confirms cenv c w) {f : Client → Client}
    (hid : (f (w.clients.get c)).id = (w.clients.get c).id)
    (hdevice : (f (w.clients.get c)).row.deviceId = (w.clients.get c).row.deviceId) :
    Confirms cenv c { w with clients := w.clients.modify c f } := by
  have hself : (w.clients.modify c f).get c = f (w.clients.get c) := Store.get_modify_self _ _ _
  obtain ⟨hc, hversions, me, hwhoami, huser, hother⟩ := h
  refine ⟨hc, hversions, me, hwhoami, ?_, ?_⟩
  · show me.userId = ((w.clients.modify c f).get c).id
    rw [hself, hid]
    exact huser
  · show Client.otherDevice me ((w.clients.modify c f).get c).row.deviceId = false
    rw [hself, hdevice]
    exact hother

/-- Setting another field of the client does not touch what the homeserver confirms. -/
theorem triple_assign {f : Client → Client} {E : World L → Prop} (hid : ∀ cl, (f cl).id = cl.id)
    (hdevice : ∀ cl, (f cl).row.deviceId = cl.row.deviceId) :
    Triple (Confirms cenv c) (setClient c f : Action L Unit) (fun _ => Confirms cenv c) E :=
  triple_modify fun _ h => h.assign (hid _) (hdevice _)

/-- Whether or not the row can be written, the client is disabled. -/
theorem tried_disable : Triple (Known cenv c) (Client.disable c : Action L Unit)
    (fun _ w => Tried cenv (w.clients.get c)) fun w => Tried cenv (w.clients.get c) := by
  have hset : Triple (Known cenv c)
      (setClientRow c fun row => { row with enabled := false } : Action L Unit)
      (fun _ w => Tried cenv (w.clients.get c)) fun w => Tried cenv (w.clients.get c) :=
    triple_modify fun w h => by
      rw [show (w.clients.modify c _).get c = _ from Store.get_modify_self _ _ _]
      exact ⟨h.2, .inl (.disabled rfl)⟩
  have hupdate : Keeps (.ofView fun w => w.clients) (Client.update c : Action L Unit) :=
    keeps_bind keeps_get fun _ => keeps_ite (keeps_pure ()) <|
      keeps_ite (keeps_modify fun _ => rfl) (keeps_throw _)
  refine hset.bind fun _ => hupdate.triple fun v v' hv h => ?_
  rw [show v'.clients = v.clients from hv]
  exact h

/-- A filter is made, or the client has none. -/
theorem tried_createFilter : Triple (Confirms cenv c)
    (Client.createFilter c cenv.createFilter : Action L Unit) (fun _ => Confirms cenv c)
      fun w => Tried cenv (w.clients.get c) := by
  have hupdate : Triple (Confirms cenv c) (Client.update c : Action L Unit)
      (fun _ => Confirms cenv c) fun w => Tried cenv (w.clients.get c) := by
    refine triple_get_bind fun w _ => ?_
    dsimp only
    split
    · exact triple_pure fun _ h => h.1
    split
    · exact triple_modify fun _ h => h.1
    · next hnull =>
      rintro v ⟨h, rfl⟩
      exact h.refused (.row (Bool.eq_false_iff.mpr hnull))
  refine triple_get_bind fun w _ => ?_
  rintro v ⟨h, rfl⟩
  by_cases hnone : (v.clients.get c).row.filterId = ""
  · rw [when, if_pos hnone]
    cases hfilter : cenv.createFilter with
    | error e => exact h.refused (.filter hnone hfilter)
    | ok f    =>
      have hset : Triple (Confirms cenv c)
          (setClientRow c fun row => { row with filterId := f } : Action L Unit)
          (fun _ => Confirms cenv c) fun w => Tried cenv (w.clients.get c) :=
        triple_assign (fun _ => rfl) fun _ => rfl
      exact hset.bind (fun _ => hupdate) v h
  · rw [when, if_neg hnone]
    exact h

/-- A request that is made if `p` holds -/
theorem tried_check {w : World L} {p : Prop} [Decidable p] {x : Option PyExc}
    (hx : ∀ e, p → x = some e → Refused cenv (w.clients.get c)) :
    Triple (fun v => Confirms cenv c v ∧ v = w) (when p (raiseIf x) : Action L Unit)
      (fun _ v => Confirms cenv c v ∧ v = w) fun v => Tried cenv (v.clients.get c) := by
  rintro v ⟨h, rfl⟩
  by_cases hp : p
  · rw [when, if_pos hp]
    cases x with
    | none   => exact ⟨h, rfl⟩
    | some e => exact h.refused (hx e hp rfl)
  · rw [when, if_neg hp]
    exact ⟨h, rfl⟩

/-- The client has been tried where its crypto machine does not start. -/
theorem tried_startCrypto {w : World L} : Triple (fun v => Confirms cenv c v ∧ v = w)
    (when ((w.clients.get c).crypto.isSome) (Client.startCrypto c cenv.crypto) : Action L Unit)
      (fun _ => Confirms cenv c) fun v => Tried cenv (v.clients.get c) := by
  rintro v ⟨h, rfl⟩
  by_cases hcrypto : (v.clients.get c).crypto.isSome = true
  · rw [when, if_pos hcrypto, Client.startCrypto, exec_get_bind]
    cases hrun : cenv.crypto.run (v.clients.get c).row.deviceId with
    | error e => exact h.refused (.crypto hcrypto hrun)
    | ok t    => exact h.assign rfl rfl
  · rw [when, if_neg hcrypto]
    exact h

/-- It has been tried where its profile is refused. -/
theorem tried_updateRemoteProfile : Triple (Confirms cenv c)
    (Client.updateRemoteProfile c cenv.profile : Action L Unit) (fun _ => Confirms cenv c)
      fun w => Tried cenv (w.clients.get c) := by
  have hanswer : Triple (Confirms cenv c)
      (attempt PyExc.isException (outcome cenv.profile) :
        Action L (Except PyExc (Option String × Option String)))
      (fun _ => Confirms cenv c) fun w => Tried cenv (w.clients.get c) := by
    intro w h
    cases hprofile : cenv.profile with
    | ok p    => exact h
    | error e =>
      have hraise : (outcome (.error e) : Action L (Option String × Option String)).exec w =
          (.error e, w) := rfl
      cases hbase : e.isException with
      | true  =>
        rw [exec_attempt_handled hraise hbase]
        exact h
      | false =>
        rw [exec_attempt_raised hraise hbase]
        exact h.refused (.base (.inr (.inr hprofile)) hbase)
  refine hanswer.bind fun r => ?_
  cases r with
  | ok _    => exact triple_assign (fun _ => rfl) fun _ => rfl
  | error _ => exact triple_pure fun _ h => h

/-- After the rest of a start it has been tried, however that ends. -/
theorem tried_bringUp : Triple (Confirms cenv c) (Client.bringUp S c cenv)
    (fun _ w => Tried cenv (w.clients.get c)) fun w => Tried cenv (w.clients.get c) := by
  refine tried_createFilter.bind fun _ => triple_get_bind fun w _ => ?_
  refine (tried_check fun e hset he => .displayname hset he).bind fun _ => ?_
  refine (tried_check fun e hset he => .avatarUrl hset he).bind fun _ => ?_
  refine tried_startCrypto.bind fun _ => ?_
  have hsync : Triple (Confirms cenv c) (Client.startSync c : Action L Unit)
      (fun _ => Confirms cenv c) fun w => Tried cenv (w.clients.get c) := by
    refine triple_read fun w _ => ?_
    rw [when]
    split
    · exact triple_modify fun _ h => h
    · exact triple_pure fun _ h => h
  refine hsync.bind fun _ => tried_updateRemoteProfile.bind fun _ => ?_
  have hset : Triple (Confirms cenv c)
      (setClient c fun cl => { cl with started := true } : Action L Unit)
      (fun _ w => Confirms cenv c w ∧ (w.clients.get c).started = true)
      fun w => Tried cenv (w.clients.get c) :=
    triple_modify fun w h => ⟨h.assign rfl rfl, by
      rw [show (w.clients.modify c _).get c = _ from Store.get_modify_self _ _ _]⟩
  -- the instances do not stop their client
  have hplugins : Keeps (Looks L fun _ => True) (Client.startPlugins S c cenv.plugins) :=
    keeps_bind keeps_get fun _ => keeps_gather fun m hm => by
      obtain ⟨i, -, rfl⟩ := List.mem_map.mp hm
      exact (looks_instances.admits i).start _
  have htried {w : World L} (h : c < w.clients.next ∧ Tried cenv (w.clients.get c)) :
      Tried cenv (w.clients.get c) := h.2
  refine hset.bind fun _ => (((hplugins.triple fun v v' hv h =>
    ⟨Nat.lt_of_lt_of_le h.1 hv.1, tried_of_look (hv.2.2 c h.1 trivial) h.2⟩).pre fun w h =>
      ⟨h.1.1, fun _ => h.1.2, .inl (.runs h.2)⟩).post (fun _ _ h => htried h) fun _ h => htried h)

/-- The first requests, which decide whether there will be another try -/
theorem tried_answer {w : World L} : Triple (fun v => Known cenv c v ∧ v = w)
    (attempt PyExc.isException do
      raiseIf cenv.versions
      outcome cenv.whoami)
    (fun r v => (Known cenv c v ∧ v = w) ∧ match r with
      | .ok me   => cenv.versions = none ∧ cenv.whoami = .ok me
      | .error _ => ∀ me, ¬ (cenv.versions = none ∧ cenv.whoami = .ok me))
    fun v => Tried cenv (v.clients.get c) := by
  rintro v ⟨h, rfl⟩
  cases hversions : cenv.versions with
  | some e =>
    have hraise : (do raiseIf (some e); outcome cenv.whoami : Action L Whoami).exec v =
        (.error e, v) := rfl
    -- an exception is handled and nothing is known; anything else ends the start
    cases hbase : e.isException with
    | true  =>
      rw [exec_attempt_handled hraise hbase]
      exact ⟨⟨h, rfl⟩, fun me hme => by cases hme.1⟩
    | false =>
      rw [exec_attempt_raised hraise hbase]
      exact ⟨h.2, .inr (.base (.inl hversions) hbase)⟩
  | none   =>
    cases hwhoami : cenv.whoami with
    | ok me   => exact ⟨⟨h, rfl⟩, rfl, rfl⟩
    | error e =>
      have hraise : (do raiseIf none; outcome (.error e) : Action L Whoami).exec v =
          (.error e, v) := rfl
      cases hbase : e.isException with
      | true  =>
        rw [exec_attempt_handled hraise hbase]
        exact ⟨⟨h, rfl⟩, fun me hme => by cases hme.2⟩
      | false =>
        rw [exec_attempt_raised hraise hbase]
        exact ⟨h.2, .inr (.base (.inr (.inl hwhoami)) hbase)⟩

/-- **One try** -/
theorem tried_tryStart : Triple (Known cenv c) (Client.tryStart S c 0 cenv)
    (fun _ w => Tried cenv (w.clients.get c)) fun w => Tried cenv (w.clients.get c) := by
  refine triple_get_bind fun w _ => ?_
  dsimp only
  split
  · next h =>
    refine triple_pure ?_
    rintro v ⟨hv, rfl⟩
    exact ⟨hv.2, .inl (.disabled (by simpa using h))⟩
  split
  · next h =>
    refine triple_pure ?_
    rintro v ⟨hv, rfl⟩
    exact ⟨hv.2, .inl (.runs h)⟩
  refine tried_answer.bind fun r => ?_
  cases r with
  -- the homeserver refuses: the client is disabled, or tried again later
  | error e =>
    dsimp only [Client.startFailed]
    split
    · exact tried_disable.pre fun _ h => h.1.1
    · rw [if_neg (by decide)]
      refine triple_modify fun v h => ?_
      rw [show (v.clients.modify c _).get c = _ from Store.get_modify_self _ _ _]
      exact ⟨h.1.1.2, .inl (.waits (by simp) h.2)⟩
  -- it answers: for another user or device the client is disabled
  | ok me   =>
    dsimp only
    split
    · exact tried_disable.pre fun _ h => h.1.1
    split
    · exact tried_disable.pre fun _ h => h.1.1
    · next huser hother =>
      refine tried_bringUp.pre ?_
      rintro v ⟨⟨h, rfl⟩, hversions, hwhoami⟩
      exact ⟨h.1, hversions, me, hwhoami, Decidable.not_not.mp huser, by simpa using hother⟩

/-- A start of a client that is known to the world has tried it. -/
theorem tried_startClient (h : Known cenv c w) :
    Tried cenv (((Client.start S c 0 cenv).exec w).2.clients.get c) := by
  have hattempt := exec_attempt_snd PyExc.isException (Client.tryStart S c 0 cenv) w
  have htry : Tried cenv (((Client.tryStart S c 0 cenv).exec w).2.clients.get c) :=
    tried_tryStart.final h
  rw [← hattempt] at htry
  rw [Client.start, exec_bind]
  rcases hr : (attempt PyExc.isException (Client.tryStart S c 0 cenv)).exec w with ⟨e | _, v⟩ <;>
    rw [hr] at htry <;>
    exact htry

end Tries

/-- Where all are started side by side, each has been tried: no start undoes that of another. -/
theorem tried_gather_start (l : List Ref) (hl : ∀ c ∈ l, Known (env c) c w)
    (hP : ∀ c, P c → c < w.clients.next ∧ Tried (env c) (w.clients.get c)) :
    let w' := ((gather (l.map fun c => Client.start S c 0 (env c))).exec w).2
    (∀ u c, w.clientCache u = some c → w'.clientCache u = some c) ∧
      ∀ c, P c ∨ c ∈ l → c < w'.clients.next ∧ Tried (env c) (w'.clients.get c) := by
  induction l generalizing w P with
  | nil => exact ⟨fun _ _ h => h, fun c hc => hP c (hc.resolve_right List.not_mem_nil)⟩
  | cons c l ih =>
    have hc := hl c List.mem_cons_self
    have hlooks := (looks_client (S := S) c).start 0 (env c) w
    have htry := tried_startClient (S := S) hc
    rw [List.map_cons, exec_gather_cons_snd]
    -- the start of `c` does not change what is known of the others
    have hrest : ∀ d ∈ l, Known (env d) d ((Client.start S c 0 (env c)).exec w).2 := by
      intro d hd
      obtain ⟨hlt, hknown⟩ := hl d (List.mem_cons_of_mem c hd)
      refine ⟨Nat.lt_of_lt_of_le hlt hlooks.1, ?_⟩
      by_cases hdc : d = c
      · rw [hdc]
        exact htry.1
      · obtain ⟨hid, hstarted, hrow, -⟩ := eq_of_look (hlooks.2.2 d hlt hdc)
        rw [Confirmed, hid, hstarted, hrow]
        exact hknown
    obtain ⟨hcache, htried⟩ := ih (P := fun d => P d ∨ d = c) hrest fun d hd => by
      by_cases hdc : d = c
      · rw [hdc]
        exact ⟨Nat.lt_of_lt_of_le hc.1 hlooks.1, htry⟩
      · obtain ⟨hlt, hd⟩ := hP d (hd.resolve_right hdc)
        exact ⟨Nat.lt_of_lt_of_le hlt hlooks.1, tried_of_look (hlooks.2.2 d hlt hdc) hd⟩
    refine ⟨fun u d hd => hcache u d (hlooks.2.1 u d hd), fun d hd => htried d ?_⟩
    rcases hd with hd | hd
    · exact .inl (.inl hd)
    · rcases List.mem_cons.mp hd with rfl | hd
      · exact .inl (.inr rfl)
      · exact .inr hd

/-- After the start of all rows' clients, the client of each row has been tried. -/
theorem tried_startAll (h : Settled S ls₀ env w)
    (hstarted : ∀ c, c < w.clients.next → (w.clients.get c).started = false) {users : List String}
    (husers : ∀ u, (w.clientRows u).isSome = true → u ∈ users) {u : String}
    (hu : (w.clientRows u).isSome = true) :
    let w' := ((startAll S users env).exec w).2
    ∃ c, w'.clientCache u = some c ∧ c < w'.clients.next ∧ Tried (env c) (w'.clients.get c) := by
  obtain ⟨l, w₁, he, -, hresting, -, hl, hcached⟩ := exec_collect_clients h
    (rowsOf w.clientRows users) fun r hr => (mem_rowsOf.mp hr).2
  have hrests (c : Ref) (hc : c < w₁.clients.next) : (w₁.clients.get c).started = false := by
    by_cases hold : c < w.clients.next
    · exact (hresting.2.1 c hold).trans (hstarted c hold)
    · exact hresting.2.2 c (Nat.le_of_not_lt hold) hc
  obtain ⟨row, hrow⟩ := Option.isSome_iff_exists.mp hu
  obtain ⟨c, hc, hcache⟩ := hcached (u, row) (mem_rowsOf.mpr ⟨husers u hu, hrow⟩)
  have hknown (d : Ref) (hd : d ∈ l) : Known (env d) d w₁ :=
    ⟨hl d hd, fun hs => by rw [hrests d (hl d hd)] at hs; cases hs⟩
  obtain ⟨hkept, htried⟩ := tried_gather_start (S := S) (P := fun _ => False) l hknown
    fun _ hc => hc.elim
  rw [startAll, exec_get_bind, exec_bind_ok he]
  exact ⟨c, hkept u c hcache, htried c (.inr hc)⟩

/-- Instances that are loaded again leave how the clients look. -/
theorem looks_loadAgain (ids : List String) :
    Keeps (Looks L fun _ => True) (loadAgain S ids) := by
  refine keeps_bind keeps_get fun w => keeps_forM fun r _ => ?_
  have hof : Keeps (Looks L fun _ => True) (instanceOf r) := by
    refine keeps_bind keeps_get fun v => ?_
    split
    · exact keeps_pure _
    · exact fun _ => looks_of_eq rfl rfl
  exact keeps_bind hof fun i => keeps_bind ((looks_instances.admits i).load) fun _ => keeps_pure ()

/-! ### The keys of the tables -/

/-- The tables have the keys of before. -/
abbrev Keys (L : Type) : Frame (World L) :=
  .ofView fun w => (fun k => (w.instanceRows k).isSome, fun u => (w.clientRows u).isSome)

/-- The keys of the tables are what `Keys` compares. -/
theorem keys_of_eq (hrows : ∀ k, (w'.instanceRows k).isSome = (w.instanceRows k).isSome)
    (husers : w'.clientRows = w.clientRows) : (Keys L).rel w w' :=
  Prod.ext (funext hrows) (funext fun u => congrArg (fun t => (t u).isSome) husers)

/-- `load` adds no row and takes none. -/
theorem keys_load (i : Ref) : Keeps (Keys L) (load S i) := fun w =>
  keys_of_eq (identity_load i w).rows ((userRows_instances.admits i).load w)

/-- Neither does the start of an instance. -/
theorem keys_startInstance (i : Ref) (env : StartEnv) :
    Keeps (Keys L) (PluginInstance.start S i env) := fun w =>
  keys_of_eq (identity_start i env w).rows ((userRows_instances.admits i).start env w)

/-- Nor the start of a client. -/
theorem keys_startClient (c : Ref) (cenv : ClientStartEnv) :
    Keeps (Keys L) (Client.start S c 0 cenv) := by
  have hset (f : Client → Client) : Keeps (Keys L) (setClient c f) := fun _ => rfl
  -- writing a row adds none
  have hupdate : Keeps (Keys L) (Client.update c) := fun w =>
    Prod.ext
      (funext fun k => congrArg (fun t => (t k).isSome) (beside_updateClient c w).instanceRows)
      (funext (beside_updateClient c w).clientRows)
  have hdisable : Keeps (Keys L) (Client.disable c) :=
    keeps_bind (hset _) fun _ => hupdate
  -- every part of a start leaves the keys, and so do the plugins that it starts
  have hbringUp : Keeps (Keys L) (Client.bringUp S c cenv) := by
    refine keeps_bind (keeps_bind keeps_get fun _ => keeps_when <| keeps_bind (keeps_outcome _)
      fun _ => keeps_bind (hset _) fun _ => hupdate) fun _ => keeps_bind keeps_get fun _ => ?_
    refine keeps_bind (keeps_when (keeps_raiseIf _)) fun _ =>
      keeps_bind (keeps_when (keeps_raiseIf _)) fun _ => keeps_bind (keeps_when ?_) fun _ =>
      keeps_bind (keeps_bind keeps_get fun _ => keeps_when fun _ => rfl) fun _ =>
      keeps_bind (keeps_bind (keeps_attempt (keeps_outcome _) _) fun r => ?_) fun _ =>
      keeps_bind (hset _) fun _ => keeps_bind keeps_get fun _ => keeps_gather fun m hm => ?_
    · exact keeps_bind keeps_get fun _ => keeps_bind (keeps_outcome _) fun _ => hset _
    · cases r with
      | ok _    => exact hset _
      | error _ => exact keeps_pure ()
    · obtain ⟨i, -, rfl⟩ := List.mem_map.mp hm
      exact keys_startInstance i _
  refine keeps_bind (keeps_attempt ?_ _) fun _ => keeps_pure ()
  refine keeps_bind keeps_get fun w => keeps_ite (keeps_pure ()) (keeps_ite (keeps_pure ()) ?_)
  refine keeps_bind (keeps_attempt (keeps_bind (keeps_raiseIf _) fun _ => keeps_outcome _) _)
    fun r => ?_
  cases r with
  | error e => exact keeps_ite hdisable (keeps_ite hdisable (hset _))
  | ok me   => exact keeps_ite hdisable (keeps_ite hdisable hbringUp)

/-- **The start** adds no row and deletes none. -/
theorem keys_start (ids users : List String) (env : Ref → ClientStartEnv) :
    Keeps (Keys L) (start S ids users env) := by
  -- objects are made of the rows that are there
  have hcollect {ρ : Type} {f : ρ → Action L Ref} (hf : ∀ r, Keeps (Keys L) (f r)) (l : List ρ) :
      Keeps (Keys L) (collect f l) := by
    induction l with
    | nil => exact keeps_pure _
    | cons r l ih => exact keeps_bind (hf r) fun _ => keeps_bind ih fun _ => keeps_pure _
  have hinstance (r : String × InstanceRow) : Keeps (Keys L) (instanceOf r) := by
    refine keeps_bind keeps_get fun w => ?_
    split
    · exact keeps_pure _
    · exact fun _ => rfl
  have hclient (r : String × ClientRow) : Keeps (Keys L) (clientOf S r) := by
    refine keeps_bind keeps_get fun w => ?_
    split
    · exact keeps_pure _
    · intro v
      obtain ⟨v', he, hm⟩ := Client.exec_fromRow (S := S) r.1 r.2 v
      rw [he]
      exact keys_of_eq (fun k => by rw [hm.others]) (by rw [hm.others])
  refine keeps_bind (keeps_bind keeps_get fun _ => keeps_bind (hcollect hinstance _) fun l =>
    keeps_gather fun m hm => ?_) fun _ => keeps_bind (keeps_bind keeps_get fun _ =>
    keeps_bind (hcollect hclient _) fun l => keeps_gather fun m hm => ?_) fun _ =>
    keeps_bind keeps_get fun _ => keeps_forM fun r _ => keeps_bind (hinstance r) fun i =>
    keeps_bind (keys_load i) fun _ => keeps_pure ()
  · obtain ⟨i, -, rfl⟩ := List.mem_map.mp hm
    exact keeps_bind (keys_load i) fun _ => keeps_pure ()
  · obtain ⟨c, -, rfl⟩ := List.mem_map.mp hm
    exact keys_startClient c (env c)

/-- Hence the rows of both tables after the start are those from before it. -/
theorem isSome_start (ids users : List String) (env : Ref → ClientStartEnv) (w : World L) :
    let w' := ((start S ids users env).exec w).2
    (∀ k, (w'.instanceRows k).isSome = (w.instanceRows k).isSome) ∧
      ∀ u, (w'.clientRows u).isSome = (w.clientRows u).isSome := by
  have h := Prod.ext_iff.mp (keys_start (S := S) ids users env w)
  exact ⟨congrFun h.1, congrFun h.2⟩

/-!
### The whole start

The parts of a `gather` run one after the other here, and it raises after all of them.  That of
`asyncio` raises as soon as a part does, while the others go on, and a `SystemExit` or a
`KeyboardInterrupt` ends the loop itself: what follows is what holds once every part has ended.
-/

/-- **The start of the program.**  Whatever the homeservers answer and the plugins do, the
    installation that it leaves is settled, and has the rows of before. -/
theorem settled_start {w₀ : World L} (h : Launch w₀) (ids : List String)
    (hids : ∀ k, (w₀.instanceRows k).isSome = true → k ∈ ids) (users : List String)
    (env : Ref → ClientStartEnv) :
    let w := ((start S ids users env).exec w₀).2
    Settled S w₀.loaders env w ∧
      (∀ k, (w.instanceRows k).isSome = (w₀.instanceRows k).isSome) ∧
        ∀ u, (w.clientRows u).isSome = (w₀.clientRows u).isSome := by
  refine ⟨?_, isSome_start ids users env w₀⟩
  obtain ⟨w₁, he, h₁, -⟩ := exec_loadAll (S := S) env h hids
  have h₂ := settled_startAll h₁ users
  rw [start, exec_bind_ok he, exec_bind]
  rcases hr : (startAll S users env).exec w₁ with ⟨e | _, w₂⟩ <;> rw [hr] at h₂
  · exact h₂
  · exact settled_loadAgain h₂ ids

/-- **Every client is tried.**  After the start each client row has its object.  It runs only if the
    homeserver has confirmed it; otherwise it is disabled, has a retry scheduled, or something else
    than the first requests failed. -/
theorem tried_start {w₀ : World L} (h : Launch w₀) (ids users : List String)
    (hids : ∀ k, (w₀.instanceRows k).isSome = true → k ∈ ids)
    (husers : ∀ u, (w₀.clientRows u).isSome = true → u ∈ users) (env : Ref → ClientStartEnv)
    {u : String} (hu : (w₀.clientRows u).isSome = true) :
    let w := ((start S ids users env).exec w₀).2
    ∃ c, w.clientCache u = some c ∧ Tried (env c) (w.clients.get c) := by
  obtain ⟨w₁, he, h₁, hrows, hrests⟩ := exec_loadAll (S := S) env h hids
  rw [← hrows] at husers hu
  obtain ⟨c, hcache, hlt, htried⟩ := tried_startAll h₁ hrests husers hu
  rw [start, exec_bind_ok he, exec_bind]
  rcases hr : (startAll S users env).exec w₁ with ⟨e | _, w₂⟩ <;> rw [hr] at hcache hlt htried
  · exact ⟨c, hcache, htried⟩
  · have hlooks := looks_loadAgain (S := S) ids w₂
    exact ⟨c, hlooks.2.1 u c hcache, tried_of_look (hlooks.2.2 c hlt trivial) htried⟩

end Settled

/-! ### A start -/

/-- The homeserver knows the client. -/
def answers : ClientStartEnv where
  whoami := .ok { userId := "@bot:example.com", deviceId := none }

/-- The only instance of the world that starts. -/
theorem mem_ids_startup (k : String) (hk : (InstanceTest.startup.instanceRows k).isSome = true) :
    k ∈ ["a"] := by
  by_cases ha : k = "a"
  · rw [ha]
    exact List.mem_cons_self
  · have hnone : InstanceTest.startup.instanceRows k = none := if_neg ha
    rw [hnone] at hk
    cases hk

/-- The only client of it. -/
theorem mem_users_startup (u : String) (hu : (InstanceTest.startup.clientRows u).isSome = true) :
    u ∈ ["@bot:example.com"] := by
  by_cases hb : u = "@bot:example.com"
  · rw [hb]
    exact List.mem_cons_self
  · have hnone : InstanceTest.startup.clientRows u = none := if_neg hb
    rw [hnone] at hu
    cases hu

/-- Client and instance of the small installation run after the start. -/
theorem settled_start_startup :
    let w := ((start InstanceTest.setup ["a"] ["@bot:example.com"] fun _ => answers).exec
      InstanceTest.startup).2
    Settled InstanceTest.setup () (fun _ => answers) w ∧ w.instanceCache "a" = some 0 ∧
      (w.instances.get 0).started = true :=
  ⟨(settled_start InstanceTest.startup_launch ["a"] mem_ids_startup _ _).1, by decide +kernel,
    by decide +kernel⟩

/-- The client of that world has been tried. -/
theorem tried_start_startup :
    let w := ((start InstanceTest.setup ["a"] ["@bot:example.com"] fun _ => answers).exec
      InstanceTest.startup).2
    ∃ c, w.clientCache "@bot:example.com" = some c ∧ Tried answers (w.clients.get c) :=
  tried_start InstanceTest.startup_launch ["a"] ["@bot:example.com"]
    mem_ids_startup mem_users_startup _ rfl

end Program

end Maubot
