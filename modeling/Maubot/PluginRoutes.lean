import Maubot.Lib.Dict
import Maubot.Instance.Operations
import Maubot.Server
import Mathlib.Data.List.Induction

namespace Maubot

/-!
# The web server — dispatch to the web apps of instances

`handle_plugin_path` goes through `plugin_routes` in the order in which the instances were
registered, and forwards a request to the first web app whose path the request's path
starts with.

* `WebServer.run` — the calls of `get_instance_subapp` and `remove_instance_webapp`;
* `registered` — which instances have a web app then, without any path;
* `dispatch_unique` — the loop finds the one instance that the path belongs to.
-/

/-- What `handle_plugin_path` reads, and the next new `PluginWebApp`. -/
structure WebServer where
  pluginRoutes : Dict String Ref
  next         : Ref

namespace WebServer

open MaubotServer

inductive Call
  | getInstanceSubapp (instanceId : String)
  | removeInstanceWebapp (instanceId : String)
  deriving DecidableEq, Repr

def Call.instanceId : Call → String
  | .getInstanceSubapp i | .removeInstanceWebapp i => i

variable {L : Type} (S : Setup L)

def start : WebServer := ⟨.empty, 0⟩

/-- `get_instance_subapp` -/
def subapp (w : WebServer) (instanceId : String) : WebServer × Ref × String :=
  let url := S.publicUrl ++ subpath S instanceId
  match h : w.pluginRoutes.get (subpath S instanceId) with
  | some app => (w, app, url)
  | none     =>
    ({ pluginRoutes := w.pluginRoutes.insertNew (subpath S instanceId) w.next h,
       next         := w.next + 1 }, w.next, url)

/-- `remove_instance_webapp` -/
def remove (w : WebServer) (instanceId : String) : WebServer :=
  { w with pluginRoutes := w.pluginRoutes.pop (subpath S instanceId) }

def step (c : Call) (w : WebServer) : WebServer :=
  match c with
  | .getInstanceSubapp i    => (w.subapp S i).1
  | .removeInstanceWebapp i => w.remove S i

def run (calls : List Call) : WebServer := calls.foldl (fun w c => step S c w) start

/-- `path.startswith(subpath)` -/
def startsWith (path subpath : String) : Bool := subpath.toList.isPrefixOf path.toList

/-- `request.path` goes to a web app with a new path, or is answered with 404. -/
def handlePluginPath (w : WebServer) (path : String) : Option (Ref × String) :=
  (w.pluginRoutes.first (startsWith path)).map fun (subpath, app) =>
    (app, String.ofList (path.toList.drop (subpath.length - 1)))

/-- The web apps by instance: a new one where there is none, until it is removed. -/
structure Registered where
  app  : String → Option Ref := fun _ => none
  next : Ref := 0

def Registered.step (c : Call) (f : Registered) : Registered :=
  match c with
  | .getInstanceSubapp i    =>
    match f.app i with
    | some _ => f
    | none   => { app := Function.update f.app i (some f.next), next := f.next + 1 }
  | .removeInstanceWebapp i => { f with app := Function.update f.app i none }

def registered (calls : List Call) : Registered := calls.foldl (fun f c => f.step c) {}

/-! ### The routes are the registered instances -/

/-- The routes are those of the registered instances, whose ids have no slash. -/
structure Refines (w : WebServer) (f : Registered) : Prop where
  next  : w.next = f.next
  get   : ∀ i, w.pluginRoutes.get (subpath S i) = f.app i
  keys  : ∀ key app, w.pluginRoutes.get key = some app → ∃ i, key = subpath S i ∧ '/' ∉ i.toList
  fresh : ∀ i app, f.app i = some app → app < f.next
  inj   : ∀ i j app, f.app i = some app → f.app j = some app → i = j

variable {S}

/-- At first nothing is registered. -/
theorem refines_start : Refines S start {} where
  next  := rfl
  get _ := rfl
  keys  := nofun
  fresh := nofun
  inj   := nofun

/-- A web app that is there is given again, -/
theorem subapp_some {w : WebServer} {i : String} {app : Ref}
    (h : w.pluginRoutes.get (subpath S i) = some app) : (w.subapp S i).1 = w := by
  unfold subapp
  dsimp only
  split
  · rfl
  · next h' => rw [h] at h'; cases h'

/-- and one that is not is made. -/
theorem subapp_none {w : WebServer} {i : String}
    (h : w.pluginRoutes.get (subpath S i) = none) : (w.subapp S i).1 =
      { pluginRoutes := w.pluginRoutes.insertNew (subpath S i) w.next h, next := w.next + 1 } := by
  unfold subapp
  dsimp only
  split
  · next h' => rw [h] at h'; cases h'
  · rfl

section Step

variable {w : WebServer} {f : Registered} {i : String}

/-- An app that is asked for is the registered one, or a new one. -/
theorem Refines.subapp (h : Refines S w f) (hc : '/' ∉ i.toList) :
    Refines S (w.subapp S i).1 (f.step (.getInstanceSubapp i)) := by
  obtain ⟨hnext, hget, hkeys, hfresh, hinj⟩ := h
  show Refines S (w.subapp S i).1 (match f.app i with
    | some _ => f
    | none   => _)
  cases hi : f.app i with
  | some app =>
    rw [subapp_some ((hget i).trans hi)]
    exact ⟨hnext, hget, hkeys, hfresh, hinj⟩
  | none =>
    have hnone : w.pluginRoutes.get (subpath S i) = none := (hget i).trans hi
    rw [subapp_none hnone]
    -- a new app under a key that no instance had
    refine ⟨by simp [hnext], fun j => ?_, fun key app hkey => ?_, fun j app hj => ?_,
      fun j j' app hj hj' => ?_⟩
    · by_cases hji : j = i
      · subst hji
        simp [Dict.get_insertNew_self, hnext]
      · rw [Dict.get_insertNew_ne hnone (fun he => hji ((subpath_inj S).mp he)), hget j]
        simp [hji]
    · by_cases hk : key = subpath S i
      · exact ⟨i, hk, hc⟩
      · rw [Dict.get_insertNew_ne hnone hk] at hkey
        exact hkeys key app hkey
    · show app < f.next + 1
      by_cases hji : j = i
      · subst hji
        obtain rfl : f.next = app := by simpa using hj
        exact Nat.lt_succ_self _
      · exact Nat.lt_succ_of_lt (hfresh j app (by simpa [hji] using hj))
    · -- the new app is no other instance's
      have hold : ∀ j, j ≠ i → Function.update f.app i (some f.next) j = some app →
          f.app j = some app ∧ app ≠ f.next := by
        intro j hji hj
        have hj' : f.app j = some app := by simpa [hji] using hj
        exact ⟨hj', Nat.ne_of_lt (hfresh j app hj')⟩
      have hnew : Function.update f.app i (some f.next) i = some app → app = f.next := by
        intro hj
        exact (Option.some.inj ((Function.update_self i _ f.app).symm.trans hj)).symm
      by_cases hji : j = i
      · by_cases hji' : j' = i
        · rw [hji, hji']
        · subst hji
          exact absurd (hnew hj) (hold j' hji' hj').2
      · by_cases hji' : j' = i
        · subst hji'
          exact absurd (hnew hj') (hold j hji hj).2
        · exact hinj j j' app (hold j hji hj).1 (hold j' hji' hj').1

/-- A web app that is removed is removed from the instances too. -/
theorem Refines.remove (h : Refines S w f) (hc : '/' ∉ i.toList) :
    Refines S (w.remove S i) (f.step (.removeInstanceWebapp i)) := by
  obtain ⟨hnext, hget, hkeys, hfresh, hinj⟩ := h
  refine ⟨hnext, fun j => ?_, fun key app hkey => ?_, fun j app hj => ?_,
    fun j j' app hj hj' => ?_⟩
  · show (w.pluginRoutes.pop (subpath S i)).get (subpath S j) =
      Function.update f.app i none j
    by_cases hji : j = i
    · subst hji
      simp
    · rw [Dict.get_pop_ne (fun he => hji ((subpath_inj S).mp he)), hget j]
      simp [hji]
  · by_cases hk : key = subpath S i
    · exact ⟨i, hk, hc⟩
    · refine hkeys key app ?_
      rw [← Dict.get_pop_ne hk]
      exact hkey
  · have hji : j ≠ i := by
      rintro rfl
      simp [Registered.step] at hj
    exact hfresh j app (by simpa [Registered.step, hji] using hj)
  · have hne : ∀ j, (f.step (.removeInstanceWebapp i)).app j = some app → f.app j = some app := by
      intro j hj
      have hji : j ≠ i := by
        rintro rfl
        simp [Registered.step] at hj
      simpa [Registered.step, hji] using hj
    exact hinj j j' app (hne j hj) (hne j' hj')

/-- So each call is one on the instances. -/
theorem Refines.step (h : Refines S w f) (c : Call) (hc : '/' ∉ c.instanceId.toList) :
    Refines S (step S c w) (f.step c) := by
  cases c with
  | getInstanceSubapp i => exact h.subapp hc
  | removeInstanceWebapp i => exact h.remove hc

end Step

/-- And so is a run of calls. -/
theorem refines_run (calls : List Call) (h : ∀ c ∈ calls, '/' ∉ c.instanceId.toList) :
    Refines S (run S calls) (registered calls) := by
  induction calls using List.reverseRecOn with
  | nil => exact refines_start
  | append_singleton calls c ih =>
    have hlast : '/' ∉ c.instanceId.toList := h c (by simp)
    have hstep := (ih fun c' hc' => h c' (by simp [hc'])).step c hlast
    unfold run registered at hstep ⊢
    rw [List.foldl_append, List.foldl_append]
    exact hstep

/-! ### Paths -/

/-- Two ids without a slash whose paths both start the same path are one. -/
theorem eq_of_append_slash {a b c d : List Char} (h : a ++ '/' :: c = b ++ '/' :: d)
    (ha : '/' ∉ a) (hb : '/' ∉ b) : a = b ∧ c = d := by
  induction a generalizing b with
  | nil =>
    cases b with
    | nil => exact ⟨rfl, (List.cons.inj h).2⟩
    | cons x b =>
      obtain rfl : '/' = x := (List.cons.inj h).1
      exact absurd List.mem_cons_self hb
  | cons x a ih =>
    cases b with
    | nil =>
      obtain rfl : x = '/' := (List.cons.inj h).1
      exact absurd List.mem_cons_self ha
    | cons y b =>
      obtain ⟨rfl, h'⟩ := List.cons.inj h
      obtain ⟨rfl, rfl⟩ := ih h' (fun hx => ha (List.mem_cons_of_mem _ hx))
        (fun hx => hb (List.mem_cons_of_mem _ hx))
      exact ⟨rfl, rfl⟩

/-- The path of an instance ends with a slash. -/
theorem subpath_toList (i : String) :
    (subpath S i).toList = S.pluginBasePath.toList ++ (i.toList ++ ['/']) := by
  simp [subpath]

/-- The path belongs to the instance: it starts with its path. -/
theorem startsWith_iff (path i : String) : startsWith path (subpath S i) = true ↔
    ∃ rest, path = subpath S i ++ rest := by
  unfold startsWith
  rw [List.isPrefixOf_iff_prefix]
  constructor
  · rintro ⟨rest, h⟩
    exact ⟨String.ofList rest, by rw [← String.toList_inj]; simp [← h]⟩
  · rintro ⟨rest, rfl⟩
    exact ⟨rest.toList, by simp⟩

/-- So no path belongs to two instances whose ids have none. -/
theorem id_unique {path i j : String} (hi : startsWith path (subpath S i) = true)
    (hj : startsWith path (subpath S j) = true) (hsi : '/' ∉ i.toList) (hsj : '/' ∉ j.toList) :
    i = j := by
  obtain ⟨rest, hrest⟩ := (startsWith_iff path i).mp hi
  obtain ⟨rest', hrest'⟩ := (startsWith_iff path j).mp hj
  have h : (subpath S i).toList ++ rest.toList = (subpath S j).toList ++ rest'.toList := by
    rw [← String.toList_append, ← String.toList_append, ← hrest, ← hrest']
  simp only [subpath_toList, List.append_assoc, List.append_cancel_left_eq] at h
  rw [← String.toList_inj]
  exact (eq_of_append_slash h hsi hsj).1

/-- The rest of the path, from the slash that ends the instance's path. -/
theorem drop_subpath (i rest : String) :
    String.ofList ((subpath S i ++ rest).toList.drop ((subpath S i).length - 1)) = "/" ++ rest := by
  rw [← String.toList_inj]
  have hlength : (subpath S i).length - 1 = (S.pluginBasePath.toList ++ i.toList).length := by
    rw [← String.length_toList, subpath_toList]
    simp
  rw [hlength, String.toList_append, subpath_toList]
  simp

/-! ### Dispatch -/

/-- What `handle_plugin_path` does in terms of the registered instances. -/
theorem handlePluginPath_of_app {w : WebServer} {f : Registered} (h : Refines S w f)
    {path i rest : String} {app : Ref} (hi : f.app i = some app) (hp : path = subpath S i ++ rest) :
    w.handlePluginPath path = some (app, "/" ++ rest) := by
  have hstarts : startsWith path (subpath S i) = true := (startsWith_iff path i).mpr ⟨rest, hp⟩
  have hget : w.pluginRoutes.get (subpath S i) = some app := (h.get i).trans hi
  have hslash : ∀ j app', w.pluginRoutes.get (subpath S j) = some app' → '/' ∉ j.toList := by
    intro j app' hj
    obtain ⟨j', he, hj'⟩ := h.keys _ app' hj
    rw [(subpath_inj S).mp he]
    exact hj'
  have hfirst : w.pluginRoutes.first (startsWith path) = some (subpath S i, app) := by
    refine Dict.first_eq_some hget hstarts fun key app' hkey hkeyStarts => ?_
    obtain ⟨j, rfl, hj⟩ := h.keys key app' hkey
    rw [id_unique hkeyStarts hstarts hj (hslash i app hget)]
  unfold handlePluginPath
  rw [hfirst, hp, ← drop_subpath i rest]
  rfl

/-- What gets a request is a registered instance that the path belongs to. -/
theorem registered_of_handlePluginPath {w : WebServer} {f : Registered} (h : Refines S w f)
    {path forwarded : String} {app : Ref} (hf : w.handlePluginPath path = some (app, forwarded)) :
    ∃ i rest, f.app i = some app ∧ path = subpath S i ++ rest ∧ forwarded = "/" ++ rest := by
  unfold handlePluginPath at hf
  obtain ⟨⟨key, app'⟩, hfirst, he⟩ := Option.map_eq_some_iff.mp hf
  obtain ⟨hget, hstarts⟩ := Dict.get_of_first hfirst
  obtain ⟨i, rfl, -⟩ := h.keys key app' hget
  obtain ⟨rest, rfl⟩ := (startsWith_iff path i).mp hstarts
  obtain ⟨rfl, rfl⟩ : app' = app ∧ "/" ++ rest = forwarded := by
    rw [← drop_subpath i rest]
    exact Prod.mk.inj he
  exact ⟨i, rest, (h.get i).symm.trans hget, rfl, rfl⟩

/-- The requests that one registered instance gets. -/
theorem handlePluginPath_iff {w : WebServer} {f : Registered} (h : Refines S w f) {i : String}
    {app : Ref} (hi : f.app i = some app) (path forwarded : String) :
    w.handlePluginPath path = some (app, forwarded) ↔
      ∃ rest, path = subpath S i ++ rest ∧ forwarded = "/" ++ rest := by
  constructor
  · intro hf
    obtain ⟨j, rest, hj, hp, rfl⟩ := registered_of_handlePluginPath h hf
    obtain rfl : j = i := h.inj j i app hj hi
    exact ⟨rest, hp, rfl⟩
  · rintro ⟨rest, hp, rfl⟩
    exact handlePluginPath_of_app h hi hp

/-- **Dispatch.**  After any calls for ids without a slash: a path that starts with the path of
    a registered instance goes to its web app, with the rest of it after a slash, and no other
    path goes anywhere; one registered instance at most qualifies, and each has an app of its
    own; and other routes with the same items, in whatever order, give the same result. -/
theorem dispatch_unique (S : Setup L) (calls : List Call)
    (h : ∀ c ∈ calls, '/' ∉ c.instanceId.toList) (path : String) :
    (∀ i app rest, (registered calls).app i = some app → path = subpath S i ++ rest →
      (run S calls).handlePluginPath path = some (app, "/" ++ rest)) ∧
    (∀ app forwarded, (run S calls).handlePluginPath path = some (app, forwarded) →
      ∃ i rest, (registered calls).app i = some app ∧ path = subpath S i ++ rest ∧
        forwarded = "/" ++ rest) ∧
    (∀ i j rest rest', (registered calls).app i ≠ none → (registered calls).app j ≠ none →
      path = subpath S i ++ rest → path = subpath S j ++ rest' → i = j) ∧
    (∀ i j app, (registered calls).app i = some app → (registered calls).app j = some app →
      i = j) ∧
    ∀ w : WebServer, (∀ key, w.pluginRoutes.get key = (run S calls).pluginRoutes.get key) →
      w.handlePluginPath path = (run S calls).handlePluginPath path := by
  have hr : Refines S (run S calls) (registered calls) := refines_run calls h
  have hslash : ∀ i, (registered calls).app i ≠ none → '/' ∉ i.toList := by
    intro i hi
    obtain ⟨app, happ⟩ := Option.ne_none_iff_exists'.mp hi
    obtain ⟨j, he, hj⟩ := hr.keys _ app ((hr.get i).trans happ)
    rw [(subpath_inj S).mp he]
    exact hj
  refine ⟨fun i app rest hi hp => handlePluginPath_of_app hr hi hp,
    fun app forwarded hf => registered_of_handlePluginPath hr hf,
    fun i j rest rest' hi hj hp hp' => ?_, hr.inj, fun w hw => ?_⟩
  · exact id_unique ((startsWith_iff path i).mpr ⟨rest, hp⟩)
      ((startsWith_iff path j).mpr ⟨rest', hp'⟩) (hslash i hi) (hslash j hj)
  -- the order of the routes does not matter, since one at most starts the path
  · unfold handlePluginPath
    rw [Dict.first_congr hw]
    intro key app key' app' hkey hkey' hp hp'
    obtain ⟨i, rfl, hi⟩ := hr.keys key app hkey
    obtain ⟨j, rfl, hj⟩ := hr.keys key' app' hkey'
    rw [id_unique hp hp' hi hj]

/-- Two instances whose ids start alike; the first one is removed, and a request for the
    second arrives. -/
theorem dispatch_unique_ab :
    let calls := [Call.getInstanceSubapp "a", .getInstanceSubapp "ab", .removeInstanceWebapp "a"]
    (registered calls).app "ab" = some 1 ∧
      (run InstanceTest.setup calls).handlePluginPath "/_matrix/maubot/plugin/ab/a/x" =
        some (1, "/" ++ "a/x") := by
  intro calls
  have hslash : ∀ c ∈ calls, '/' ∉ c.instanceId.toList := by decide
  have happ : (registered calls).app "ab" = some 1 := by decide
  have hunique := dispatch_unique InstanceTest.setup calls hslash "/_matrix/maubot/plugin/ab/a/x"
  exact ⟨happ, hunique.1 "ab" 1 "a/x" happ (by decide)⟩

/-! ### The instances' view of the server -/

/-- The table that the calls of an instance read and write is the one that is dispatched on. -/
def Serves (v : World L) (w : WebServer) : Prop :=
  (∀ key, v.pluginRoutes key = w.pluginRoutes.get key) ∧ v.webapps.next = w.next

/-- The server in the model of the instances gives the same web app, -/
theorem serves_getInstanceSubapp {v : World L} {w : WebServer} (h : Serves v w) (i : String) :
    ((getInstanceSubapp S i).exec v).1 = .ok (w.subapp S i).2 ∧
      Serves ((getInstanceSubapp S i).exec v).2 (w.subapp S i).1 := by
  obtain ⟨hroutes, hnext⟩ := h
  cases hget : w.pluginRoutes.get (subpath S i) with
  -- the two tables have the same keys, and the same next web app
  | some app =>
    rw [exec_getInstanceSubapp_some ((hroutes _).trans hget), subapp_some hget]
    refine ⟨?_, hroutes, hnext⟩
    unfold subapp
    dsimp only
    split
    · next app' h' =>
      rw [hget] at h'
      obtain rfl := Option.some.inj h'
      rfl
    · next h' => rw [hget] at h'; cases h'
  | none =>
    rw [exec_getInstanceSubapp_none ((hroutes _).trans hget), subapp_none hget]
    refine ⟨?_, fun key => ?_, by simp [hnext]⟩
    · unfold subapp
      dsimp only
      split
      · next h' => rw [hget] at h'; cases h'
      · rw [hnext]
    · show Function.update v.pluginRoutes (subpath S i) (some v.webapps.next) key = _
      by_cases hk : key = subpath S i
      · subst hk
        rw [Function.update_self, Dict.get_insertNew_self, hnext]
      · rw [Function.update_of_ne hk, Dict.get_insertNew_ne hget hk, hroutes]

/-- and removes the same. -/
theorem serves_removeInstanceWebapp {v : World L} {w : WebServer} (h : Serves v w) (i : String) :
    Serves ((removeInstanceWebapp S i).exec v).2 (w.remove S i) := by
  obtain ⟨hroutes, hnext⟩ := h
  cases hget : w.pluginRoutes.get (subpath S i) with
  | none =>
    rw [exec_removeInstanceWebapp_none ((hroutes _).trans hget)]
    refine ⟨fun key => ?_, hnext⟩
    show v.pluginRoutes key = (w.pluginRoutes.pop (subpath S i)).get key
    by_cases hk : key = subpath S i
    · subst hk
      rw [Dict.get_pop_self, hroutes, hget]
    · rw [Dict.get_pop_ne hk, hroutes]
  | some app =>
    rw [exec_removeInstanceWebapp_some ((hroutes _).trans hget)]
    refine ⟨fun key => ?_, hnext⟩
    show Function.update v.pluginRoutes (subpath S i) none key =
      (w.pluginRoutes.pop (subpath S i)).get key
    by_cases hk : key = subpath S i
    · subst hk
      rw [Function.update_self, Dict.get_pop_self]
    · rw [Function.update_of_ne hk, Dict.get_pop_ne hk, hroutes]

end WebServer

end Maubot
