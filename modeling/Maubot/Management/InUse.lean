import Maubot.Runs

namespace Maubot.Management

open Prog PluginInstance

/-!
# Management API — deleting what instances still name

`delete_plugin` and `delete_client` look at the reference sets, while the rows say what is in
use.

* `PluginGuarded`, `ClientGuarded` — the deletion is refused while a row names the plugin or
  the client;
* `PluginHeld`, `ClientHeld` — if a row names it, some instance has it loaded;
* `guarded_iff_held` — in every state reached the two agree.  A row whose instance has not
  been loaded, for instance because the plugin file was missing, guards nothing.
-/

variable {L : Type} (S : Setup L)

/-- The handler `delete_plugin`; `delete` is the method of the loader. -/
def deletePlugin (p : String) (delete : Ref → Prog L PyExc Unit) : Action L Response := do
  let w ← world
  match S.loaders.find w.loaders p with
  | none   => pure Response.pluginNotFound
  | some l =>
    if 0 < (w.loaderReferences l).length then pure Response.pluginInUse
    else do
      zoom (fun w : World L => w.loaders) (fun ls w => { w with loaders := ls }) (delete l)
      pure Response.deleted

/-! ### The property -/

/-- Some row is of the type `p`. -/
def TypeNamed (p : String) (w : World L) : Prop :=
  ∃ k row, w.instanceRows k = some row ∧ row.type = p

/-- Some row has the primary user `u`. -/
def UserNamed (u : String) (w : World L) : Prop :=
  ∃ k row, w.instanceRows k = some row ∧ row.primaryUser = u

/-- `delete_plugin(p)` succeeds only if no row is of that type. -/
def PluginGuarded (p : String) (w : World L) : Prop :=
  ∀ delete, ((deletePlugin S p delete).exec w).1 = .ok Response.deleted → ¬ TypeNamed p w

/-- `delete_client(u)` calls `Client.delete` only if no row has that primary user. -/
def ClientGuarded (u : String) (w : World L) : Prop :=
  ∀ env c w', (Client.deletable S u env).exec w = (.ok (.ok c), w') → ¬ UserNamed u w

/-- If a row is of the type `p`, some instance has the plugin loaded. -/
def PluginHeld (p : String) (w : World L) : Prop :=
  TypeNamed p w → ∀ l, S.loaders.find w.loaders p = some l →
    ∃ i, Live w i ∧ (w.instances.get i).loader = some l

/-- If a row has the primary user `u`, some instance has the client loaded. -/
def ClientHeld (u : String) (w : World L) : Prop :=
  UserNamed u w → ∃ i c, w.clientCache u = some c ∧ Live w i ∧
    (w.instances.get i).client = some c

/-! ### The sets and the instances -/

variable {S} {ρ : Type} {g : InstanceRow → ρ} {w : World L}

/-- A loader has no references if no live instance has it, -/
theorem loaderReferences_nil_iff (hs : Sound S g w) (l : Ref) :
    w.loaderReferences l = [] ↔ ∀ i, Live w i → (w.instances.get i).loader ≠ some l := by
  have hmem := (hs.linked.loaders l).mem_elems
  constructor
  · intro hnil i hi hl
    have := (hmem i).mpr ⟨hi, hl⟩
    rw [hnil] at this
    cases this
  · intro hnone
    by_contra hne
    obtain ⟨e, he⟩ := List.exists_mem_of_ne_nil _ hne
    have hi := (hmem e.2).mp (List.mem_map.mpr ⟨e, he, rfl⟩)
    exact hnone e.2 hi.1 hi.2

/-- and the same for a client. -/
theorem clientReferences_nil_iff (hs : Sound S g w) {c : Ref} (hc : c < w.clients.next) :
    (w.clients.get c).references = [] ↔
      ∀ i, Live w i → (w.instances.get i).client ≠ some c := by
  have hmem := (hs.linked.clients c hc).mem_elems
  constructor
  · intro hnil i hi hl
    have := (hmem i).mpr ⟨hi, hl⟩
    rw [hnil] at this
    cases this
  · intro hnone
    by_contra hne
    obtain ⟨e, he⟩ := List.exists_mem_of_ne_nil _ hne
    have hi := (hmem e.2).mp (List.mem_map.mpr ⟨e, he, rfl⟩)
    exact hnone e.2 hi.1 hi.2

/-- **Plugins.**  The guard and the law agree just if some instance has the plugin loaded. -/
theorem pluginGuarded_iff (hs : Sound S g w) (p : String) :
    PluginGuarded S p w ↔ PluginHeld S p w := by
  constructor
  · intro h hnamed l hl
    by_contra hnone
    have hnil : w.loaderReferences l = [] := (loaderReferences_nil_iff hs l).mpr fun i hi hil =>
      hnone ⟨i, hi, hil⟩
    -- nothing stops a loader that can be deleted
    refine h (fun _ => pure ()) ?_ hnamed
    rw [deletePlugin, exec_get_bind, hl]
    dsimp only
    rw [hnil, if_neg (by decide)]
    rfl
  · intro h delete hdeleted hnamed
    rw [deletePlugin, exec_get_bind] at hdeleted
    cases hfind : S.loaders.find w.loaders p with
    | none =>
      rw [hfind] at hdeleted
      cases hdeleted
    | some l =>
      obtain ⟨i, hi, hil⟩ := h hnamed l hfind
      have hne : w.loaderReferences l ≠ [] := fun hnil =>
        (loaderReferences_nil_iff hs l).mp hnil i hi hil
      rw [hfind] at hdeleted
      dsimp only at hdeleted
      rw [if_pos (List.length_pos_iff.mpr hne)] at hdeleted
      cases hdeleted

/-- **Clients.**  The same of the client of a primary user. -/
theorem clientGuarded_iff (hs : Sound S g w) (u : String) :
    ClientGuarded S u w ↔ ClientHeld u w := by
  have hlookup (env : Ref → StopEnv) := exec_deletable hs u env
  constructor
  · rintro h ⟨k, row, hrow, rfl⟩
    have huser : (w.clientRows row.primaryUser).isSome = true := hs.saved.keys k row hrow
    -- the client is not deleted, so it has references, and was there before
    obtain ⟨r, w', hget, hs', -, hinst, ⟨e, -, hrefs⟩ | ⟨c, w₂, -, -, -, hrun, -⟩⟩ :=
      hlookup fun _ => {}
    · rcases Client.exec_get (S := S) row.primaryUser w with
        ⟨c, hc, he⟩ | ⟨crow, v, -, -, he, hm⟩ | ⟨-, hnone, -⟩
      · obtain ⟨hr, rfl⟩ : Except.ok r = Except.ok (some c) ∧ w' = w := Prod.ext_iff.mp
          (hget.symm.trans he)
        obtain rfl := Except.ok.inj hr
        obtain ⟨-, hlt, -⟩ := hs.linked.clientCache _ c hc
        by_contra hnone
        exact hrefs c rfl ((clientReferences_nil_iff hs hlt).mpr fun i hi hic =>
          hnone ⟨i, c, hc, hi, hic⟩)
      · obtain ⟨hr, rfl⟩ : Except.ok r = Except.ok (some w.clients.next) ∧ w' = v :=
          Prod.ext_iff.mp (hget.symm.trans he)
        obtain rfl := Except.ok.inj hr
        exact absurd hm.references (hrefs _ rfl)
      · rw [hnone] at huser
        cases huser
    · exact absurd ⟨k, row, hrow, rfl⟩ (h _ c w₂ hrun)
  · rintro h env c w₂ hrun hnamed
    obtain ⟨i, c', hcache, hi, hic⟩ := h hnamed
    obtain ⟨r, w', hget, hs', -, hinst, ⟨e, he, -⟩ | ⟨c₁, v, hr, -, hrefs, -, -⟩⟩ := hlookup env
    · rw [he] at hrun
      cases hrun
    · have hcached : (Client.get S u none none none).exec w = (.ok (some c'), w) := by
        simp [Client.get, hcache]
      obtain ⟨hr', rfl⟩ : Except.ok r = Except.ok (some c') ∧ w' = w :=
        Prod.ext_iff.mp (hget.symm.trans hcached)
      obtain rfl := Except.ok.inj hr'
      obtain rfl := Option.some.inj hr
      obtain ⟨-, hlt, -⟩ := hs.linked.clientCache u _ hcache
      exact (clientReferences_nil_iff hs hlt).mp hrefs i hi hic

/-- The call does not rename. -/
structure KeepsNames (S : Setup L) (w : World L) (call : Call L) : Prop where
  held       : call.Held w
  restricted : call.Restricted w
  renames    : ¬ call.Renames S w

/-- **Deletions over whole runs.**  Unless some `update_id` has taken effect, in every state
    reached a plugin or client that a row names is safe just if an instance has it loaded. -/
theorem guarded_iff_held {w₀ : World L} (h₀ : Launch w₀)
    (h : Reach (Call.exec S) (KeepsNames S) w₀ w) :
    (∀ p, PluginGuarded S p w ↔ PluginHeld S p w) ∧ ∀ u, ClientGuarded S u w ↔ ClientHeld u w := by
  have hs : Sound S InstanceRow.primaryUser w :=
    h.invariant h₀.sound fun _ _ hs hcall => sound_exec hs (fun _ _ hr => hr)
      ⟨hcall.held, hcall.restricted, hcall.renames, Or.inr fun _ _ => rfl⟩
  exact ⟨pluginGuarded_iff hs, clientGuarded_iff hs⟩

/-! ### The plugin file that was missing -/

namespace InUseTest

/-- The plugin `plugin` is there once its file has been uploaded. -/
def loaders : LoaderImpl Bool where
  find uploaded type := if uploaded && type == "plugin" then some 0 else none
  metaOf _ := InstanceTest.loaders.metaOf ()
  load _ := pure 0
  load_find _ _ := rfl
  load_meta _ _ := rfl

def setup : Setup Bool := { InstanceTest.setup with loaders := loaders }

/-- The file is missing when the program starts. -/
def startup : World Bool := { InstanceTest.startup with loaders := false }

/-- The world of the witness is one at launch. -/
theorem startup_launch : Launch startup where
  instances := rfl
  instanceCache := rfl
  clients := rfl
  clientCache := rfl
  references := rfl
  users := InstanceTest.startup_launch.users
  failures := rfl

/-- The instance `a` is looked up and loaded in vain; then the file is uploaded. -/
def calls : List (Call Bool) :=
  [.onInstance (.get "a" none none), .onInstance (.load 0), .loaders true]

def uploaded : World Bool := calls.foldl (fun w call => call.exec setup w) startup

/-- Its run keeps the names, -/
theorem reach_uploaded : Reach (Call.exec setup) (KeepsNames setup) startup uploaded := by
  have hget : Reach (Call.exec setup) (KeepsNames setup) startup
      (Call.exec setup (.onInstance (.get "a" none none)) startup) :=
    Reach.step (Call.onInstance (Op.get "a" none none)) .start
      ⟨by rintro i ⟨⟩, trivial, fun h => h⟩
  have hload := Reach.step (Call.onInstance (Op.load 0)) hget
    ⟨by rintro i ⟨⟩; decide, trivial, fun h => h⟩
  exact Reach.step (Call.loaders true) hload ⟨trivial, trivial, fun h => h⟩

/-- so they are right. -/
theorem uploaded_named : TypeNamed "plugin" uploaded ∧ UserNamed "@bot:example.com" uploaded :=
  ⟨⟨"a", { InstanceTest.instanceRow with enabled := false }, by decide +kernel, rfl⟩,
    ⟨"a", { InstanceTest.instanceRow with enabled := false }, by decide +kernel, rfl⟩⟩

/-- Plugin and client can both be deleted, though the instance `a` names them. -/
theorem uploaded_not_guarded :
    ¬ ∀ w₀ : World Bool, Launch w₀ → ∀ w, Reach (Call.exec setup) (KeepsNames setup) w₀ w →
      (∀ p, PluginGuarded setup p w) ∧ ∀ u, ClientGuarded setup u w := by
  intro h
  obtain ⟨hplugin, -⟩ := h startup startup_launch uploaded reach_uploaded
  exact hplugin "plugin" (fun _ => pure ()) (by decide +kernel) uploaded_named.1

/-- No instance has them loaded. -/
theorem uploaded_guarded_iff :
    (PluginGuarded setup "plugin" uploaded ↔ PluginHeld setup "plugin" uploaded) ∧
      (ClientGuarded setup "@bot:example.com" uploaded ↔
        ClientHeld "@bot:example.com" uploaded) :=
  ⟨(guarded_iff_held startup_launch reach_uploaded).1 "plugin",
    (guarded_iff_held startup_launch reach_uploaded).2 "@bot:example.com"⟩

end InUseTest

end Maubot.Management
