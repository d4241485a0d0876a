import Maubot.PluginRoutes
import Maubot.Lib.UrlPath
import Mathlib.Data.List.DropRight

namespace Maubot.Standalone

open UrlPath

/-!
# Standalone mode — the base path of the web app

The web server of a single bot has one `PrefixResource` for the plugin's web app, and behind it
`_handle_plugin_request`, which takes the base path off the path of a request.

* `Urls` — what `yarl` and the router of `aiohttp` do with a path, in any version;
* `PrefixResource` / `handlePluginRequest` / `forward` — a request on its way to the web app;
* `Dispatched` — where a request should go, and that the server of normal mode agrees;
* `Fronted` — the condition on the base path and the path, as the router and the handler see it;
* `dispatched_iff` — the requests that go where they should: the resource compares the text that
  the router gives it and the handler the decoded path, and neither looks at what follows the base.
-/

abbrev Text := List Char

/-- What `yarl` makes of a path, and how the router of `aiohttp` comes to a resource. -/
structure Urls where
  /-- `URL.build(path=path).raw_path` -/
  quote       : Text → Text
  /-- the `path` of an URL with this `raw_path` -/
  unquote     : Text → Text
  /-- the text that the router gives to `_match` for this `raw_path`: the raw path itself, from
      3.10.6 on the path in which only quoted slashes and percent signs stay quoted -/
  matched     : Text → Text
  /-- whether the router has an index of its resources -/
  indexed     : Bool
  /-- a request with this text is tried on a resource with this `canonical` -/
  asks        : Text → Text → Bool
  /-- with an index those are the resources whose `canonical` is a leading part of the text, else
      all are -/
  asks_iff    : ∀ canonical text, ¬ ['/'] <:+ canonical →
    (asks canonical text = true ↔ (indexed = true → canonical = [] ∨ Under '/' canonical text))
  quote_slash : ∀ path, ¬ ['/'] <:+ path → ¬ ['/'] <:+ quote path

variable (U : Urls)

/-! ### The resource -/

structure PrefixResource where
  /-- `_prefix` -/
  rawPrefix : Text
  deriving DecidableEq, Repr

namespace PrefixResource

/-- `PrefixResource(prefix)`; there is none where an assertion fails. -/
def new (path : Text) : Option PrefixResource :=
  if path = [] ∨ ['/'] <+: path then
    if path = [] ∨ path = ['/'] ∨ ¬ ['/'] <:+ path then some ⟨U.quote path⟩ else none
  else none

def canonical (r : PrefixResource) : Text := r.rawPrefix

def rawMatch (r : PrefixResource) (path : Text) : Bool :=
  !path.isEmpty && r.rawPrefix.isPrefixOf path

/-- `_match`, with an empty match dict -/
def tryMatch (r : PrefixResource) (path : Text) : Option Unit :=
  if r.rawMatch path then some () else none

end PrefixResource

/-! ### The web app -/

/-- The web server of standalone mode. -/
structure WebApp where
  webBasePath : Text
  resource    : PrefixResource
  deriving DecidableEq, Repr

/-- The server for `server.base_path`, if it is set up at all. -/
def webApp (basePath : Text) : Option WebApp :=
  let webBasePath := basePath.rdropWhile (· = '/')
  (PrefixResource.new U webBasePath).map fun resource => ⟨webBasePath, resource⟩

/-- The path of `rel_url.with_path(path)` -/
def withPath (path : Text) : Text :=
  if path ≠ [] ∧ path.head? ≠ some '/' then '/' :: path else path

/-- `_handle_plugin_request`: the path that the plugin's web app gets, or a 404. -/
def handlePluginRequest (webBasePath path : Text) : Option Text :=
  if webBasePath.isPrefixOf path then some (withPath (path.drop webBasePath.length)) else none

namespace WebApp

variable (app : WebApp)

/-- The router comes to the resource, and the resource matches. -/
def reached (raw : Text) : Bool :=
  U.asks app.resource.canonical (U.matched raw) && (app.resource.tryMatch (U.matched raw)).isSome

/-- The path of a request with this raw path when the plugin's web app gets it. -/
def forward (raw : Text) : Option Text :=
  if app.reached U raw then handlePluginRequest app.webBasePath (U.unquote raw) else none

end WebApp

/-! ### Where a request should go -/

/-- An empty rest counts as a slash. -/
def orSlash (rest : Text) : Text := if rest = [] then ['/'] else rest

/-- The web app gets the requests below the base path, with the rest of their path, and
    elsewhere than at the base path itself those that an instance with this base path gets from
    the server.  `counts` is what the forwarded path counts as. -/
structure Dispatched (counts : Text → Text) (base path : Text) (forwarded : Option Text) :
    Prop where
  isSome_iff : forwarded.isSome = true ↔ Under '/' base path
  rest       : ∀ p, forwarded = some p → ∃ rest, path = base ++ rest ∧ counts p = orSlash rest
  server     : ∀ {L : Type} (S : Setup L) (calls : List WebServer.Call) (i : String) (app : Ref),
    (∀ c ∈ calls, '/' ∉ c.instanceId.toList) →
    (WebServer.registered calls).app i = some app →
    (S.pluginBasePath ++ i).toList = base → path ≠ base →
    ∀ p, (WebServer.run S calls).handlePluginPath (String.ofList path) = some (app, p) ↔
      forwarded = some p.toList

/-- The text that the router compares begins like the quoted base path; if the router has an index,
    it lies below the quoted base path. -/
def Spelled (base raw : Text) : Prop :=
  U.matched raw ≠ [] ∧
    if U.indexed then U.quote base = [] ∨ Under '/' (U.quote base) (U.matched raw)
    else U.quote base <+: U.matched raw

/-- Of the paths that start with the base path, those below it are spelled like it, and the others
    are not. -/
def Fronted (base raw : Text) : Prop :=
  base <+: U.unquote raw → (Spelled U base raw ↔ Under '/' base (U.unquote raw))

/-- Nothing in the base path or the path is quoted. -/
structure Unquoted (base raw : Text) : Prop where
  base : U.quote base = base
  path : U.matched raw = U.unquote raw
  root : ∃ rest, U.unquote raw = '/' :: rest

instance (base raw : Text) : Decidable (Spelled U base raw) :=
  inferInstanceAs (Decidable (_ ∧ _))

instance (base raw : Text) : Decidable (Fronted U base raw) :=
  inferInstanceAs (Decidable (_ → _))

/-! ### What is forwarded -/

variable {U}

/-- What is behind the base path is passed on, -/
theorem handlePluginRequest_append (base rest : Text) :
    handlePluginRequest base (base ++ rest) = some (withPath rest) := by
  unfold handlePluginRequest
  rw [if_pos (List.isPrefixOf_iff_prefix.mpr (List.prefix_append base rest)), List.drop_left]

/-- and nothing else is. -/
theorem handlePluginRequest_eq_some_iff {base path p : Text} :
    handlePluginRequest base path = some p ↔ ∃ rest, path = base ++ rest ∧ p = withPath rest := by
  constructor
  · intro h
    by_cases hp : base <+: path
    · obtain ⟨rest, rfl⟩ := hp
      rw [handlePluginRequest_append] at h
      exact ⟨rest, rfl, (Option.some.inj h).symm⟩
    · unfold handlePluginRequest at h
      rw [if_neg (mt List.isPrefixOf_iff_prefix.mp hp)] at h
      cases h
  · rintro ⟨rest, rfl, rfl⟩
    exact handlePluginRequest_append base rest

/-- A request is forwarded if it is matched, and its path begins with the base path. -/
theorem forward_eq_some_iff {app : WebApp} {raw p : Text} : app.forward U raw = some p ↔
    app.reached U raw = true ∧ ∃ rest, U.unquote raw = app.webBasePath ++ rest ∧
      p = withPath rest := by
  unfold WebApp.forward
  by_cases h : app.reached U raw = true
  · simp only [h, if_true, true_and, handlePluginRequest_eq_some_iff]
  · simp only [h, Bool.false_eq_true, if_false, false_and, reduceCtorEq]

/-- Whatever comes to the handler is forwarded, if its path starts like the base path. -/
theorem forward_isSome_iff {app : WebApp} {raw : Text} : (app.forward U raw).isSome = true ↔
    app.reached U raw = true ∧ app.webBasePath <+: U.unquote raw := by
  rw [Option.isSome_iff_exists]
  constructor
  · rintro ⟨p, hp⟩
    obtain ⟨hreached, rest, hpath, -⟩ := forward_eq_some_iff.mp hp
    exact ⟨hreached, rest, hpath.symm⟩
  · rintro ⟨hreached, rest, hpath⟩
    exact ⟨withPath rest, forward_eq_some_iff.mpr ⟨hreached, rest, hpath.symm, rfl⟩⟩

/-- Below the base path nothing is put before the rest. -/
theorem withPath_of_under {base rest : Text} (h : Under '/' base (base ++ rest)) :
    withPath rest = rest := by
  rcases under_append_iff.mp h with rfl | ⟨cs, rfl⟩ <;> rfl

/-- `rstrip("/")` leaves no slash at the end. -/
theorem not_suffix_rdropWhile (path : Text) : ¬ ['/'] <:+ path.rdropWhile (· = '/') := by
  rintro ⟨init, hinit⟩
  have hne : path.rdropWhile (· = '/') ≠ [] := by
    rw [← hinit]
    simp
  have hlast := List.rdropWhile_last_not (· = '/') path hne
  simp only [← hinit, List.getLast_append_singleton, decide_true, not_true_eq_false] at hlast

/-- The web app is set up for a base path that is empty or starts with a slash. -/
theorem webApp_eq_some_iff {basePath : Text} {app : WebApp} : webApp U basePath = some app ↔
    (basePath.rdropWhile (· = '/') = [] ∨ ['/'] <+: basePath.rdropWhile (· = '/')) ∧
      app = ⟨basePath.rdropWhile (· = '/'), ⟨U.quote (basePath.rdropWhile (· = '/'))⟩⟩ := by
  have hend := not_suffix_rdropWhile basePath
  unfold webApp PrefixResource.new
  generalize basePath.rdropWhile (· = '/') = base at hend ⊢
  have hassert : base = [] ∨ base = ['/'] ∨ ¬ ['/'] <:+ base := .inr (.inr hend)
  dsimp only
  rw [if_pos hassert]
  by_cases hstart : base = [] ∨ ['/'] <+: base
  · simp only [hstart, if_true, Option.map_some, Option.some.injEq, true_and, eq_comm]
  · simp only [hstart, if_false, Option.map_none, reduceCtorEq, false_and]

/-! ### The router -/

/-- **The router** comes to the resource, and the resource matches, for the paths that are spelled
    like the base path. -/
theorem reached_iff {base raw : Text} (hbase : ¬ ['/'] <:+ base) :
    (WebApp.mk base ⟨U.quote base⟩).reached U raw = true ↔ Spelled U base raw := by
  have hasks := U.asks_iff (U.quote base) (U.matched raw) (U.quote_slash base hbase)
  have hmatch : (PrefixResource.tryMatch ⟨U.quote base⟩ (U.matched raw)).isSome = true ↔
      U.matched raw ≠ [] ∧ U.quote base <+: U.matched raw := by
    simp [PrefixResource.tryMatch, PrefixResource.rawMatch]
  rw [WebApp.reached, Bool.and_eq_true, PrefixResource.canonical, hasks, hmatch, Spelled]
  cases U.indexed with
  | false => simp
  | true  =>
    -- what lies below the quoted base path begins like it
    have hprefix : U.quote base = [] ∨ Under '/' (U.quote base) (U.matched raw) →
        U.quote base <+: U.matched raw := by
      rintro (hempty | hunder)
      · rw [hempty]
        exact List.nil_prefix
      · exact hunder.isPrefix
    simp only [forall_const, if_true]
    exact ⟨fun ⟨ha, hne, _⟩ => ⟨hne, ha⟩, fun ⟨hne, ha⟩ => ⟨ha, hne, hprefix ha⟩⟩

/-- **Nothing quoted.**  The router with an index is right about every path, and the one without
    about those that do not only start like the base path. -/
theorem fronted_iff_of_unquoted {base raw : Text} (h : Unquoted U base raw) :
    Fronted U base raw ↔
      (U.indexed = false → base <+: U.unquote raw → Under '/' base (U.unquote raw)) := by
  obtain ⟨hquote, hpath, rest, hroot⟩ := h
  have hne : U.unquote raw ≠ [] := by
    rw [hroot]
    exact List.cons_ne_nil _ _
  rw [Fronted, Spelled, hquote, hpath]
  cases U.indexed with
  | false =>
    simp only [Bool.false_eq_true, if_false, forall_const]
    exact forall_congr' fun hprefix => by simp [hne, hprefix]
  | true  =>
    have hempty : base = [] → Under '/' base (U.unquote raw) := by
      rintro rfl
      rw [hroot]
      exact under_append_iff.mpr (.inr ⟨rest, rfl⟩)
    simp only [if_true, Bool.true_eq_false, false_imp_iff, iff_true]
    exact fun _ => ⟨fun ⟨_, h⟩ => h.elim hempty id, fun h => ⟨hne, .inr h⟩⟩

/-! ### Where the request goes -/

/-- The server gives an instance with this base path what lies inside of it. -/
theorem server_iff {L : Type} (S : Setup L) {calls : List WebServer.Call} {i : String} {app : Ref}
    (hcalls : ∀ c ∈ calls, '/' ∉ c.instanceId.toList)
    (hi : (WebServer.registered calls).app i = some app) (path : Text) (p : String) :
    (WebServer.run S calls).handlePluginPath (String.ofList path) = some (app, p) ↔
      ∃ rest, path = (S.pluginBasePath ++ i).toList ++ '/' :: rest ∧ p.toList = '/' :: rest := by
  rw [WebServer.handlePluginPath_iff (WebServer.refines_run calls hcalls) hi]
  have hsub : ∀ rest : String, String.ofList path = MaubotServer.subpath S i ++ rest ↔
      path = (S.pluginBasePath ++ i).toList ++ '/' :: rest.toList := by
    intro rest
    rw [← String.toList_inj, String.toList_append, WebServer.subpath_toList]
    simp
  constructor
  · rintro ⟨rest, hp, rfl⟩
    exact ⟨rest.toList, (hsub rest).mp hp, by simp⟩
  · rintro ⟨rest, hp, hrest⟩
    refine ⟨String.ofList rest, (hsub _).mpr (by simpa using hp), ?_⟩
    rw [← String.toList_inj, hrest]
    simp

section Dispatched

variable {app : WebApp} {raw : Text}

/-- Of the paths that start with the base path, those below it come to the handler, and the
    others are stopped on the way. -/
def Admitted (U : Urls) (app : WebApp) (raw : Text) : Prop :=
  app.webBasePath <+: U.unquote raw →
    (app.reached U raw = true ↔ Under '/' app.webBasePath (U.unquote raw))

/-- **One request.**  It goes where it should exactly if the handler gets the right ones. -/
theorem dispatched_orSlash_iff :
    Dispatched orSlash app.webBasePath (U.unquote raw) (app.forward U raw) ↔
      Admitted U app raw := by
  constructor
  · intro h hbase
    rw [← h.isSome_iff, forward_isSome_iff]
    exact ⟨fun hreached => ⟨hreached, hbase⟩, And.left⟩
  · intro h
    have hsome : (app.forward U raw).isSome = true ↔ Under '/' app.webBasePath (U.unquote raw) := by
      rw [forward_isSome_iff]
      exact ⟨fun ⟨hreached, hbase⟩ => (h hbase).mp hreached,
        fun hunder => ⟨(h hunder.isPrefix).mpr hunder, hunder.isPrefix⟩⟩
    have hrest : ∀ p, app.forward U raw = some p → U.unquote raw = app.webBasePath ++ p := by
      intro p hp
      have hunder := hsome.mp (by rw [hp]; rfl)
      obtain ⟨-, rest, hpath, rfl⟩ := forward_eq_some_iff.mp hp
      rw [hpath] at hunder ⊢
      rw [withPath_of_under hunder]
    refine ⟨hsome, fun p hp => ⟨p, hrest p hp, ?_⟩, ?_⟩
    · rfl
    · intro L S calls i server hcalls hi hbase hne p
      rw [server_iff S hcalls hi, hbase]
      constructor
      · rintro ⟨rest, hpath, hp⟩
        have hunder : Under '/' app.webBasePath (U.unquote raw) := by
          rw [hpath]
          exact under_append_iff.mpr (.inr ⟨rest, rfl⟩)
        obtain ⟨q, hq⟩ := Option.isSome_iff_exists.mp (hsome.mpr hunder)
        -- both take the same text off the same path
        have hsame := hrest q hq
        rw [hpath, List.append_cancel_left_eq] at hsame
        rw [hq, hp, hsame]
      · intro hp
        have hpath := hrest _ hp
        have hunder := hsome.mp (by rw [hp]; rfl)
        rw [hpath] at hunder
        -- the server does not give an instance its base path itself
        rcases under_append_iff.mp hunder with hempty | ⟨rest, hrest⟩
        · rw [hempty, List.append_nil] at hpath
          exact absurd hpath hne
        · exact ⟨rest, by rw [hpath, hrest], hrest⟩

/-- Where an empty path is not a slash, the base path itself is not served. -/
theorem dispatched_id_iff :
    Dispatched id app.webBasePath (U.unquote raw) (app.forward U raw) ↔
      Admitted U app raw ∧ U.unquote raw ≠ app.webBasePath := by
  rw [← dispatched_orSlash_iff]
  constructor
  · intro h
    refine ⟨⟨h.isSome_iff, fun p hp => ?_, h.server⟩, fun hbase => ?_⟩
    · obtain ⟨rest, hpath, rfl⟩ := h.rest p hp
      refine ⟨rest, hpath, ?_⟩
      show orSlash (orSlash rest) = orSlash rest
      by_cases hrest : rest = []
      · rw [hrest]
        rfl
      · simp only [orSlash, hrest, if_false]
    · -- at the base path the empty path is forwarded
      obtain ⟨p, hp⟩ := Option.isSome_iff_exists.mp (h.isSome_iff.mpr (.inl hbase))
      obtain ⟨rest, hpath, hrest⟩ := h.rest p hp
      obtain ⟨-, rest', hpath', hforward⟩ := forward_eq_some_iff.mp hp
      have hempty : ∀ r, U.unquote raw = app.webBasePath ++ r → r = [] := by
        intro r hr
        rw [hbase] at hr
        exact List.append_right_eq_self.mp hr.symm
      rw [hempty rest hpath, hforward, hempty rest' hpath'] at hrest
      cases hrest
  · rintro ⟨h, hne⟩
    refine ⟨h.isSome_iff, fun p hp => ?_, h.server⟩
    -- behind the base path something is left, so no slash has to be put in
    have hunder := h.isSome_iff.mp (by rw [hp]; rfl)
    obtain ⟨-, rest, hpath, rfl⟩ := forward_eq_some_iff.mp hp
    refine ⟨rest, hpath, ?_⟩
    rw [hpath] at hunder hne
    have hrest : rest ≠ [] := by
      rintro rfl
      exact hne (List.append_nil _)
    rw [withPath_of_under hunder, orSlash, if_neg hrest]
    rfl

end Dispatched

/-- **The base path of standalone mode.**  For every base path that the server is set up with
    and every request: it goes where it should exactly if it is spelled like the base path as far
    as it lies below it; and if an empty path does not count as a slash, exactly if it is also not
    for the base path itself.  Where nothing is quoted, that is so with a router with an index, and
    without one for the paths that lie below the base path or do not start like it. -/
theorem dispatched_iff (U : Urls) {basePath : Text} {app : WebApp}
    (happ : webApp U basePath = some app) (raw : Text) :
    let base := basePath.rdropWhile (· = '/')
    (Dispatched orSlash base (U.unquote raw) (app.forward U raw) ↔ Fronted U base raw) ∧
    (Dispatched id base (U.unquote raw) (app.forward U raw) ↔
      Fronted U base raw ∧ U.unquote raw ≠ base) ∧
    (Unquoted U base raw → (Fronted U base raw ↔
      (U.indexed = false → base <+: U.unquote raw → Under '/' base (U.unquote raw)))) := by
  intro base
  obtain ⟨-, rfl⟩ := webApp_eq_some_iff.mp happ
  have hfronted : Admitted U ⟨base, ⟨U.quote base⟩⟩ raw ↔ Fronted U base raw :=
    imp_congr_right fun _ => by rw [reached_iff (not_suffix_rdropWhile basePath)]
  exact ⟨dispatched_orSlash_iff.trans hfronted,
    dispatched_id_iff.trans (and_congr_left' hfronted), fronted_iff_of_unquoted⟩

/-! ### Two routers -/

/-- The router gives the raw path to every resource, as the versions before 3.9 do. -/
def unindexed : Urls where
  quote       := id
  unquote     := unquote fun _ => false
  matched     := id
  indexed     := false
  asks        := fun _ _ => true
  asks_iff    := by simp
  quote_slash := fun _ h => h

/-- The router gives the decoded path to the resources that its index names, as the versions from
    3.10.6 on do. -/
def indexed : Urls where
  quote       := id
  unquote     := unquote fun _ => false
  matched     := unquote fun c => c = '/' ∨ c = '%'
  indexed     := true
  asks        := fun canonical text => canonical = [] ∨ Under '/' canonical text
  asks_iff    := by simp
  quote_slash := fun _ h => h

/-- A request below the base path, whose trailing slash does not count. -/
theorem dispatched_iff_echo :
    webApp indexed "/base/".toList = some ⟨"/base".toList, ⟨"/base".toList⟩⟩ ∧
      Dispatched id "/base".toList "/base/echo".toList
        ((WebApp.mk "/base".toList ⟨"/base".toList⟩).forward indexed "/%62ase/echo".toList) := by
  have happ : webApp indexed "/base/".toList = some ⟨"/base".toList, ⟨"/base".toList⟩⟩ := by
    decide
  have hdispatched := (dispatched_iff indexed happ "/%62ase/echo".toList).2.1
  exact ⟨happ, hdispatched.mpr (by decide)⟩

/-- With a router without an index a request that only starts like the base path is forwarded, and
    one that is quoted needlessly is not; with any router the base path itself arrives as an empty
    path, or not at all. -/
theorem not_dispatched_base :
    let base := "/base".toList
    let app := WebApp.mk base ⟨base⟩
    (app.forward unindexed "/basefoo".toList = some "/foo".toList ∧
      ¬ Dispatched orSlash base "/basefoo".toList
        (app.forward unindexed "/basefoo".toList)) ∧
    ¬ Dispatched orSlash base "/base/x".toList (app.forward unindexed "/%62ase/x".toList) ∧
    ∀ U : Urls, U.unquote base = base → ¬ Dispatched id base base (app.forward U base) := by
  intro base app
  have hplain : unindexed.unquote "/basefoo".toList = "/basefoo".toList := by decide
  have hquoted : unindexed.unquote "/%62ase/x".toList = "/base/x".toList := by decide
  refine ⟨⟨by decide, fun h => ?_⟩, fun h => ?_, fun U hbase h => ?_⟩
  · -- forwarded, though it only starts like the base path
    rw [← hplain] at h
    have hadmitted : Admitted unindexed app "/basefoo".toList := dispatched_orSlash_iff.mp h
    exact absurd hadmitted (by unfold Admitted; decide)
  · -- not forwarded, though it lies below the base path
    rw [← hquoted] at h
    have hadmitted : Admitted unindexed app "/%62ase/x".toList := dispatched_orSlash_iff.mp h
    exact absurd hadmitted (by unfold Admitted; decide)
  · have hid : Dispatched id app.webBasePath (U.unquote base) (app.forward U base) := by
      rw [hbase]
      exact h
    exact (dispatched_id_iff.mp hid).2 hbase

end Maubot.Standalone
