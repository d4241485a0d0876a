import Maubot.Instance.Outcomes
import Maubot.Program

namespace Maubot

open Prog PluginInstance

/-!
# Stopping and starting again — `__main__.py`

* `stop` — the clients in the cache are stopped, and stop their plugins;
* `stopped_stop` — what still runs after that, and that no row has changed;
* `Session` — starts, calls, stops and the end of the process, in any order that makes sense;
* `settled_restart` — after any of it the next start leaves a settled installation.
-/

variable {L : Type} (S : Setup L)

namespace Program

/-- `Maubot.stop` without databases and web server; `clients` are the values of `Client.cache`. -/
def stop (clients : List Ref) (env : Ref → Ref → StopEnv) : Action L Unit :=
  gather (clients.map fun c => Client.stop c (env c))

section Stop

variable {S} {ρ : Type} {g : InstanceRow → ρ} {w : World L} {c : Ref}

/-! ### The tables -/

/-- The tables are as before. -/
abbrev Tables (L : Type) : Frame (World L) := .ofView fun w => (w.instanceRows, w.clientRows)

/-- A stop adds no row and takes none, -/
theorem tables_stopInstance (i : Ref) (env : StopEnv) :
    Keeps (Tables L) (PluginInstance.stop i env) := by
  have hlogged (x : Failure) {m : Action L Unit} (hm : Keeps (Tables L) m) :
      Keeps (Tables L) (logged x m) := by
    refine keeps_bind (keeps_attempt hm _) fun r => ?_
    cases r with
    | ok _    => exact keeps_pure ()
    | error _ => exact fun _ => rfl
  have hplugin : Keeps (Tables L) (stopPlugin i env) := by
    refine keeps_bind keeps_get fun w => ?_
    split
    · refine keeps_bind (keeps_raiseIf _) fun _ => keeps_bind (keeps_bind keeps_get fun _ =>
        keeps_forM fun _ _ _ => rfl) fun _ => keeps_bind (keeps_bind keeps_get fun w => ?_)
        fun _ => keeps_raiseIf _
      split
      · exact keeps_pure ()
      · exact fun _ => rfl
    · exact keeps_throw _
  have hdatabase : Keeps (Tables L) (closeDatabase i env) :=
    keeps_bind keeps_get fun _ =>
      keeps_ite (hlogged _ (AdmitsParts.stopDatabase _)) (keeps_pure ())
  exact keeps_bind keeps_get fun _ => keeps_ite
    (keeps_bind (fun _ => rfl) fun _ => keeps_bind (hlogged _ hplugin) fun _ =>
      keeps_bind (fun _ => rfl) fun _ => hdatabase) (keeps_pure ())

/-- and neither does that of a client. -/
theorem tables_stopClient (c : Ref) (env : Ref → StopEnv) :
    Keeps (Tables L) (Client.stop c env) := by
  have hplugins : Keeps (Tables L) (Client.stopPlugins c env) :=
    keeps_bind keeps_get fun _ => keeps_gather fun m hm => by
      obtain ⟨i, -, rfl⟩ := List.mem_map.mp hm
      exact tables_stopInstance i (env i)
  exact keeps_bind keeps_get fun _ => keeps_when <| keeps_bind (fun _ => rfl) fun _ =>
    keeps_bind hplugins fun _ => keeps_bind keeps_get fun _ _ => rfl

/-! ### The instances of a client -/

/-- All of a list are stopped, however their stops end, and no other. -/
theorem stopped_instances (S : Setup L) (l : List Ref) (env : Ref → StopEnv) (w : World L) :
    let w' := ((gather (l.map fun i => PluginInstance.stop i (env i))).exec w).2
    (∀ i ∈ l, (w'.instances.get i).started = false) ∧
      ∀ i, i ∉ l → w'.instances.get i = w.instances.get i := by
  induction l generalizing w with
  | nil => exact ⟨fun _ h => absurd h List.not_mem_nil, fun _ _ => rfl⟩
  | cons j l ih =>
    rw [List.map_cons, exec_gather_cons_snd]
    obtain ⟨hstopped, hkept⟩ := ih ((PluginInstance.stop j (env j)).exec w).2
    refine ⟨fun i hi => ?_, fun i hi => ?_⟩
    · by_cases hil : i ∈ l
      · exact hstopped i hil
      · obtain rfl : i = j := (List.mem_cons.mp hi).resolve_right hil
        rw [hkept i hil]
        exact stop_stopped S (env i) w
    · obtain ⟨hij, hil⟩ := not_or.mp fun h => hi (List.mem_cons.mpr h)
      rw [hkept i hil]
      exact (admits_others (S := S) (i := j)).stop (env j) w i hij

/-! ### A client -/

/-- The client has been marked as stopped. -/
def marked (c : Ref) (w : World L) : World L :=
  { w with clients := w.clients.modify c fun cl => { cl with started := false } }

/-- A client that is stopped is marked so, -/
theorem marked_self (c : Ref) (w : World L) :
    (marked c w).clients.get c = { w.clients.get c with started := false } :=
  Store.get_modify_self w.clients c fun cl => { cl with started := false }

/-- and no other is. -/
theorem marked_ne {d : Ref} (h : d ≠ c) : (marked c w).clients.get d = w.clients.get d :=
  Store.get_modify_ne w.clients (fun cl => { cl with started := false }) h

/-- The instances that it stops -/
def running (c : Ref) (w : World L) : List Ref :=
  (w.clients.get c).references.elems.filter fun i => (w.instances.get i).started

/-- A client that runs is marked, stops them, and nothing else of clients and instances changes. -/
theorem exec_stopClient (S : Setup L) (env : Ref → StopEnv)
    (hstarted : (w.clients.get c).started = true) :
    let v := ((gather ((running c (marked c w)).map fun i =>
      PluginInstance.stop i (env i))).exec (marked c w)).2
    let w' := ((Client.stop c env).exec w).2
    w'.instances = v.instances ∧ w'.clients = (marked c w).clients ∧
      LinksUnchanged S (marked c w) v := by
  let F : Frame (World L) := .ofView fun v => (v.instances, v.clients)
  have hsync : Keeps F (Client.stopSync c) := keeps_bind keeps_get fun _ _ => rfl
  have hrest : F.rel ((Client.stopPlugins c env).exec (marked c w)).2
      ((Client.stop c env).exec w).2 := by
    rw [Client.stop, exec_get_bind, when, if_pos hstarted]
    exact rel_bind (fun _ => hsync) (marked c w)
  have hlinks : Keeps (Links S) (gather ((running c (marked c w)).map fun i =>
      PluginInstance.stop i (env i))) :=
    keeps_gather fun m hm => by
      obtain ⟨i, -, rfl⟩ := List.mem_map.mp hm
      exact links_stop i (env i)
  obtain ⟨hinstances, hclients⟩ := Prod.ext_iff.mp hrest
  exact ⟨hinstances, Eq.trans hclients (hlinks (marked c w)).clients, hlinks (marked c w)⟩

/-- What a stop of the client `c` does to clients and instances -/
structure Stops (c : Ref) (w w' : World L) : Prop where
  self      : (w'.clients.get c).started = false
  clients   : ∀ d, d ≠ c → w'.clients.get d = w.clients.get d
  client    : ∀ i, (w'.instances.get i).client = (w.instances.get i).client
  instances : ∀ i, Live w i → ((w'.instances.get i).started = true ↔
    (w.instances.get i).started = true ∧
      ((w.instances.get i).client = some c → (w.clients.get c).started = false))

/-- **A client is stopped**, and with it the instances that refer to it. -/
theorem stops_client (hs : Sound S g w) (hc : c < w.clients.next) (env : Ref → StopEnv) :
    Stops c w ((Client.stop c env).exec w).2 := by
  cases hstarted : (w.clients.get c).started with
  | false =>
    have hexec : (Client.stop c env).exec w = (.ok (), w) := by
      rw [Client.stop, exec_get_bind, when, if_neg]
      · rfl
      · rw [hstarted]
        decide
    rw [hexec]
    exact ⟨hstarted, fun _ _ => rfl, fun _ => rfl, fun i _ => (and_iff_left fun _ => hstarted).symm⟩
  | true  =>
    obtain ⟨hinstances, hclients, hlinks⟩ := exec_stopClient S env hstarted
    obtain ⟨hstopped, hkept⟩ := stopped_instances S (running c (marked c w)) env (marked c w)
    -- those that are stopped are the live instances of the client that run
    have hrunning (i : Ref) : i ∈ running c (marked c w) ↔
        (Live w i ∧ (w.instances.get i).client = some c) ∧
          (w.instances.get i).started = true := by
      rw [running, List.mem_filter, marked_self]
      exact and_congr_left' ((hs.linked.clients c hc).mem_elems i)
    refine ⟨?_, fun d hd => ?_, fun i => ?_, fun i hi => ?_⟩
    · rw [hclients, marked_self]
    · rw [hclients]
      exact marked_ne hd
    · rw [hinstances]
      exact (eq_of_links (hlinks.links i)).2.2.2.2.1
    · rw [hinstances]
      by_cases hmem : i ∈ running c (marked c w)
      · obtain ⟨⟨-, hclient⟩, -⟩ := (hrunning i).mp hmem
        rw [hstopped i hmem]
        exact ⟨(by cases ·), fun h => absurd (h.2 hclient) (by rw [hstarted]; decide)⟩
      · -- one that is not stopped has another client, or did not run
        rw [hkept i hmem]
        refine (and_iff_left_of_imp fun hi' hclient => ?_).symm
        exact absurd ((hrunning i).mpr ⟨⟨hi, hclient⟩, hi'⟩) hmem

/-! ### All clients -/

/-- Clients that are stopped one after the other are all stopped. -/
theorem stops_clients (hs : Sound S g w) (l : List Ref) (hl : ∀ c ∈ l, c < w.clients.next)
    (env : Ref → Ref → StopEnv) :
    let w' := ((stop l env).exec w).2
    Sound S g w' ∧ (∀ c, c ∈ l ∨ (w.clients.get c).started = false →
        (w'.clients.get c).started = false) ∧
      (∀ i, Live w i → Live w' i) ∧
      ∀ i, Live w i → ((w'.instances.get i).started = true ↔ (w.instances.get i).started = true ∧
        ∀ c ∈ l, (w.instances.get i).client = some c → (w.clients.get c).started = false) := by
  induction l generalizing w with
  | nil =>
    refine ⟨hs, fun c hc => hc.resolve_left List.not_mem_nil, fun _ h => h, fun i _ => ?_⟩
    exact (and_iff_left fun _ h => absurd h List.not_mem_nil).symm
  -- the first stop leaves the others as they were, so the rest stop as before
  | cons c l ih =>
    have hc := hl c List.mem_cons_self
    have hstops := stops_client hs hc (env c)
    obtain ⟨hs₁, holder⟩ :=
      (admits_keeping (S := S) (c := c)).stop (env c) w hs hc fun _ h => h.elim
    rw [stop, List.map_cons, exec_gather_cons_snd]
    obtain ⟨hs', hclients, hlive, hinstances⟩ := ih hs₁ fun d hd =>
      Nat.lt_of_lt_of_le (hl d (List.mem_cons_of_mem c hd)) holder.clients
    refine ⟨hs', fun d hd => hclients d ?_, fun i hi => hlive i (holder.instances i hi),
      fun i hi => (hinstances i (holder.instances i hi)).trans ?_⟩
    · by_cases hdc : d = c
      · rw [hdc]
        exact .inr hstops.self
      · rw [hstops.clients d hdc]
        exact hd.imp_left fun hd => (List.mem_cons.mp hd).resolve_left hdc
    · rw [hstops.instances i hi, hstops.client i, and_assoc, List.forall_mem_cons]
      refine and_congr_right fun _ => and_congr_right fun hhead => forall₂_congr fun d hd => ?_
      refine imp_congr_right fun hclient => ?_
      by_cases hdc : d = c
      · rw [hdc] at hclient ⊢
        exact iff_of_true hstops.self (hhead hclient)
      · rw [hstops.clients d hdc]

/-- The end of the program leaves the tables. -/
theorem tables_stop (clients : List Ref) (env : Ref → Ref → StopEnv) :
    Keeps (Tables L) (stop clients env) :=
  keeps_gather fun m hm => by
    obtain ⟨c, -, rfl⟩ := List.mem_map.mp hm
    exact tables_stopClient c (env c)

/-- **The stop of the program.**  Whatever the plugins and databases raise, no client in the cache
    runs any more, and an instance still runs only if it ran without its client; if the plugins do
    not save their configurations meanwhile (`StopEnv`), the tables are as before. -/
theorem stopped_stop (hs : Sound S g w) (clients : List Ref)
    (hclients : ∀ c, c ∈ clients ↔ ∃ u, w.clientCache u = some c) (env : Ref → Ref → StopEnv) :
    let w' := ((stop clients env).exec w).2
    (w'.instanceRows = w.instanceRows ∧ w'.clientRows = w.clientRows) ∧
      (∀ u c, w.clientCache u = some c → (w'.clients.get c).started = false) ∧
      ∀ i, Live w i → ((w'.instances.get i).started = true ↔ (w.instances.get i).started = true ∧
        ∀ u c, w.clientCache u = some c → (w.instances.get i).client = some c →
          (w.clients.get c).started = false) := by
  obtain ⟨-, hstopped, -, hinstances⟩ := stops_clients hs clients (fun c hc => by
    obtain ⟨u, hu⟩ := (hclients c).mp hc
    exact (hs.linked.clientCache u c hu).2.1) env
  refine ⟨Prod.ext_iff.mp (tables_stop clients env w),
    fun u c hc => hstopped c (.inl ((hclients c).mpr ⟨u, hc⟩)), fun i hi => ?_⟩
  rw [hinstances i hi]
  refine and_congr_right fun _ => ⟨fun h u c hc => h c ((hclients c).mpr ⟨u, hc⟩), fun h c hc => ?_⟩
  obtain ⟨u, hu⟩ := (hclients c).mp hc
  exact h u c hu

end Stop

/-! ### From one process to the next -/

/-- The process has ended; another one begins with the tables that it left, and the loaders `ls`. -/
def relaunch (ls : L) (w : World L) : World L :=
  { w with
    instances        := { w.instances with next := 0 }
    instanceCache    := fun _ => none
    clients          := { w.clients with next := 0 }
    clientCache      := fun _ => none
    matrixClients    := { w.matrixClients with next := 0 }
    eventHandlers    := { w.eventHandlers with next := 0 }
    plugins          := { w.plugins with next := 0 }
    webapps          := { w.webapps with next := 0 }
    pluginRoutes     := fun _ => none
    loaderReferences := fun _ => []
    loaders          := ls
    failures         := [] }

/-- What happens to an installation -/
inductive Session (L : Type)
  | start (ids users : List String) (env : Ref → ClientStartEnv)
  | call (op : Call L)
  | stop (clients : List Ref) (env : Ref → Ref → StopEnv)
  /-- The process ends, whether it was stopped or not. -/
  | down (ls : L)

namespace Session

def exec (e : Session L) (w : World L) : World L :=
  match e with
  | .start ids users env => ((Program.start S ids users env).exec w).2
  | .call op             => op.exec S w
  | .stop clients env    => ((Program.stop clients env).exec w).2
  | .down ls             => relaunch ls w

/-- A process starts once, of all rows; callers hold their objects and rename no instance; all
    clients in the cache are stopped. -/
def Allowed (w : World L) : Session L → Prop
  | .start ids users _ => Launch w ∧ (∀ k, (w.instanceRows k).isSome = true → k ∈ ids) ∧
    ∀ u, (w.clientRows u).isSome = true → u ∈ users
  | .call op           => op.Held w ∧ op.Restricted w ∧ ¬ op.Renames S w
  | .stop clients _    => ∀ c, c ∈ clients ↔ ∃ u, w.clientCache u = some c
  | .down _            => True

end Session

section Sessions

variable {S} {ρ τ : Type} {g : InstanceRow → ρ} {w w₀ : World L}

/-- Its start leaves their keys. -/
theorem isSome_session_start (ids users : List String) (env : Ref → ClientStartEnv) (w : World L) :
    (∀ k, ((Session.exec S (.start ids users env) w).instanceRows k).isSome =
      (w.instanceRows k).isSome) ∧
    ∀ u, ((Session.exec S (.start ids users env) w).clientRows u).isSome =
      (w.clientRows u).isSome := isSome_start ids users env w

/-- The first step of a run -/
theorem reach_start (h : Launch w) {ids users : List String}
    (hids : ∀ k, (w.instanceRows k).isSome = true → k ∈ ids)
    (husers : ∀ u, (w.clientRows u).isSome = true → u ∈ users) (env : Ref → ClientStartEnv) :
    Reach (Session.exec S) (Session.Allowed S) w (Session.exec S (.start ids users env) w) :=
  Reach.step (Session.start ids users env) Reach.start ⟨h, hids, husers⟩

/-- A stop leaves the tables alone. -/
theorem tables_session_stop (clients : List Ref) (env : Ref → Ref → StopEnv) (w : World L) :
    (Session.exec S (.stop clients env) w).instanceRows = w.instanceRows ∧
      (Session.exec S (.stop clients env) w).clientRows = w.clientRows :=
  Prod.ext_iff.mp (tables_stop clients env w)

/-- After a restart nothing is loaded. -/
theorem launch_relaunch (hs : Sound S g w) (ls : L) : Launch (relaunch ls w) where
  instances     := rfl
  instanceCache := rfl
  clients       := rfl
  clientCache   := rfl
  references    := rfl
  users         := hs.saved.keys
  failures      := rfl

/-- Less of the rows is looked at. -/
theorem sound_comp (hs : Sound S g w) (f : ρ → τ) : Sound S (fun r => f (g r)) w :=
  { hs with
    saved := { hs.saved with
      saved := fun i row hi hp hrow => congrArg f (hs.saved.saved i row hi hp hrow) } }

/-- **Step.**  Registry, references and foreign keys survive whatever happens. -/
theorem sound_session {e : Session L} (hs : Sound S (fun r : InstanceRow => r.primaryUser) w)
    (he : e.Allowed S w) : Sound S (fun r : InstanceRow => r.primaryUser) (e.exec S w) := by
  cases e with
  | start ids users env =>
    exact sound_comp (settled_start he.1 ids he.2.1 users env).1.sound InstanceRow.primaryUser
  | call op             =>
    obtain ⟨hheld, hrestricted, hrenames⟩ := he
    exact sound_exec hs (fun _ _ h => h) ⟨hheld, hrestricted, hrenames, .inr fun _ _ => rfl⟩
  | stop clients env    =>
    refine (stops_clients hs clients (fun c hc => ?_) env).1
    obtain ⟨u, hu⟩ := (he c).mp hc
    exact (hs.linked.clientCache u c hu).2.1
  | down ls             => exact (launch_relaunch hs ls).sound

/-- **Starting again.**  After any starts, calls, stops and crashes, the next process finds all
    rows: the installation that its start leaves is settled, and every client has been tried. -/
theorem settled_restart (h₀ : Launch w₀) (h : Reach (Session.exec S) (Session.Allowed S) w₀ w)
    (ls : L) (ids users : List String) (hids : ∀ k, (w.instanceRows k).isSome = true → k ∈ ids)
    (husers : ∀ u, (w.clientRows u).isSome = true → u ∈ users) (env : Ref → ClientStartEnv) :
    let w' := ((start S ids users env).exec (relaunch ls w)).2
    (Settled S ls env w' ∧ (∀ k, (w'.instanceRows k).isSome = (w.instanceRows k).isSome) ∧
      ∀ u, (w'.clientRows u).isSome = (w.clientRows u).isSome) ∧
      ∀ u, (w.clientRows u).isSome = true →
        ∃ c, w'.clientCache u = some c ∧ Tried (env c) (w'.clients.get c) := by
  have hs : Sound S (fun r : InstanceRow => r.primaryUser) w :=
    h.invariant h₀.sound fun _ _ hs he => sound_session hs he
  have hlaunch := launch_relaunch hs ls
  exact ⟨settled_start hlaunch ids hids users env, fun u hu =>
    tried_start hlaunch ids users hids husers env hu⟩

end Sessions

/-! ### A session of the small installation -/

/-- The small installation after its start -/
@[irreducible] def after : World Unit :=
  Session.exec InstanceTest.setup (.start ["a"] ["@bot:example.com"] fun _ => answers)
    InstanceTest.startup

/-- The world of the witness is sound, -/
theorem sound_after : Sound InstanceTest.setup (fun r : InstanceRow => r) after := by
  unfold after
  exact (settled_start InstanceTest.startup_launch ["a"] mem_ids_startup _ _).1.sound

/-- has the rows that it began with, -/
theorem isSome_after : (∀ k, (after.instanceRows k).isSome =
      (InstanceTest.startup.instanceRows k).isSome) ∧
    ∀ u, (after.clientRows u).isSome = (InstanceTest.startup.clientRows u).isSome := by
  unfold after
  exact isSome_session_start _ _ _ _

/-- and one client. -/
theorem mem_cached_after (c : Ref) : c ∈ [0] ↔ ∃ u, after.clientCache u = some c := by
  have hcached : after.clientCache "@bot:example.com" = some 0 := by decide +kernel
  constructor
  · intro hc
    rw [List.mem_singleton.mp hc]
    exact ⟨_, hcached⟩
  · rintro ⟨u, hu⟩
    -- what is in the cache has a row, and the start has added none
    have hrow := (sound_after.linked.clientCache u c hu).2.2
    rw [isSome_after.2] at hrow
    obtain rfl : u = "@bot:example.com" := List.mem_singleton.mp (mem_users_startup u hrow)
    exact List.mem_singleton.mpr (Option.some.inj (hu.symm.trans hcached))

/-- The instance runs before the stop, and not after it. -/
theorem stopped_stop_after :
    (after.instances.get 0).started = true ∧
      ((((stop [0] fun _ _ => {}).exec after).2).instances.get 0).started = false ∧
      ((stop [0] fun _ _ => {}).exec after).2.instanceRows = after.instanceRows := by
  obtain ⟨⟨hrows, -⟩, -, hinstances⟩ :=
    stopped_stop sound_after [0] mem_cached_after fun _ _ => {}
  refine ⟨by decide +kernel, ?_, hrows⟩
  rw [Bool.eq_false_iff]
  intro hstarted
  have hclient := ((hinstances 0 (by decide +kernel)).mp hstarted).2 "@bot:example.com" 0
    (by decide +kernel) (by decide +kernel)
  exact absurd hclient (by decide +kernel)

/-- It is started, stopped and started again. -/
theorem settled_restart_after :
    let w := Session.exec InstanceTest.setup (.stop [0] fun _ _ => {}) after
    Settled InstanceTest.setup () (fun _ => answers)
      ((start InstanceTest.setup ["a"] ["@bot:example.com"] fun _ => answers).exec
        (relaunch () w)).2 := by
  have hstart : Reach (Session.exec InstanceTest.setup) (Session.Allowed InstanceTest.setup)
      InstanceTest.startup after := by
    unfold after
    exact reach_start InstanceTest.startup_launch mem_ids_startup mem_users_startup _
  have hstop := Reach.step (Session.stop [0] fun _ _ => {}) hstart mem_cached_after
  obtain ⟨hrows, husers⟩ := tables_session_stop (S := InstanceTest.setup) [0] (fun _ _ => {}) after
  refine (settled_restart InstanceTest.startup_launch hstop () ["a"] ["@bot:example.com"]
    (fun k hk => mem_ids_startup k ?_) (fun u hu => mem_users_startup u ?_) _).1.1
  · rw [hrows, isSome_after.1] at hk
    exact hk
  · rw [husers, isSome_after.2] at hu
    exact hu

end Program

end Maubot
