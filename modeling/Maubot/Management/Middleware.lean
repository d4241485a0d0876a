import Maubot.Management.Router

namespace Maubot.Management

/-!
# Management API — the auth middleware against the router

The middleware decides by prefix tests on the fully decoded path which requests need no
token; the router decides by the segments of the path in which `%2F` is still encoded.
The two agree on every route except `/client/{id}` and its sub-resources, where an
encoded slash in the id can make the decoded path look like `complete_sso`'s:

* `subpath_eq` — what the middleware reads, in terms of the router's segments;
* `isOpenPath_of_neverOpen` — no other route can look open;
* `guarded_iff` — a request without a valid token is stopped before any protected
  handler exactly when it is no `SmuggledClientId`.
-/

/-! ### The middleware -/

/-- What becomes of a request. -/
inductive Outcome
  /-- answered before any handler was called -/
  | answered (r : Response)
  /-- the handler was called -/
  | called (h : Handler)
  deriving DecidableEq, Repr

def ssoCompletePrefix : Text := "/client/auth_external_sso/complete/".toList

/-- The middleware's prefix tests. -/
def isOpenPath (subpath : Text) : Bool :=
  "/auth/".toList.isPrefixOf subpath
    || ssoCompletePrefix.isPrefixOf subpath
    || subpath = "/features".toList
    || subpath = "/logs".toList

/-- `request.path[len("/_matrix/maubot/v1"):]` -/
def Request.subpath (req : Request) : Text := req.path.drop apiPrefix.length

def auth (cfg : AuthConfig) (req : Request) (handler : Request → Outcome) : Outcome :=
  if isOpenPath req.subpath then handler req
  else
    match checkToken cfg req with
    | some err => .answered err
    | none     => handler req

/-- The response or the call a resolved request leads to. -/
def dispatch (cfg : AuthConfig) (req : Request) (h : Handler) : Outcome :=
  auth cfg req (fun _ => .called h)

/-- If the router resolves the request to a protected handler, the middleware answers with
    an error and the handler is not called. -/
def Guarded {cfg : AuthConfig} (router : Router cfg) (req : Request) : Prop :=
  ∀ h, router.resolve req = some h → h ∉ openHandlers →
    ∃ err : Response, dispatch cfg req h = .answered err ∧ err.isError = true

/-- The request is for `/client/{id}` or one of its sub-resources, and its decoded path
    starts like the one of `complete_sso`: the id holds an encoded slash. -/
def SmuggledClientId (cfg : AuthConfig) (req : Request) : Prop :=
  cfg.hasClientRoutes ∧
    (∃ r ∈ clientIdRoutes, r.method = req.method ∧
      matchesParts (apiPrefixParts ++ .lit "client" :: .var :: r.path)
        (UrlPath.split '/' req.pathSafe) = true) ∧
    ssoCompletePrefix.isPrefixOf req.subpath = true

/-- An open path is called without a token. -/
theorem dispatch_of_isOpenPath {cfg : AuthConfig} {req : Request} (h : Handler)
    (ho : isOpenPath req.subpath = true) : dispatch cfg req h = .called h := by
  simp [dispatch, auth, ho]

/-- Without a valid token the middleware lets through only what its prefix tests call open. -/
theorem dispatch_of_not_isOpenPath {cfg : AuthConfig} {req : Request} (h : Handler)
    (ho : isOpenPath req.subpath = false) (ht : ¬ HasValidToken cfg req) :
    ∃ err : Response, dispatch cfg req h = .answered err ∧ err.isError = true := by
  cases hc : checkToken cfg req with
  | none => exact absurd ((checkToken_eq_none_iff cfg req).mp hc) ht
  | some err => exact ⟨err, by simp [dispatch, auth, ho, hc], isError_of_checkToken hc⟩

/-! ### The decoded path in terms of the router's segments -/

/-- `request.path` decodes everything. -/
private def keepNothing : Char → Bool := fun _ => false

private def keepSlash : Char → Bool := fun c => c = '/' || c = '%'

/-- A raw segment that the router reads as fixed text reads the same in `request.path`. -/
private theorem unquote_lit {t : Text} {s : String} (hs : '%' ∉ s.toList)
    (h : UrlPath.unquote keepSlash t = s.toList) : UrlPath.unquote keepNothing t = s.toList := by
  rw [← h]
  exact UrlPath.unquote_of_no_percent (by rw [h]; exact hs)

/-- **The two readings.** Below the mount point, the middleware reads the join of the fully
    decoded raw segments whose partly decoded forms the router matches. -/
theorem subpath_eq {req : Request} {ps : List Part}
    (h : matchesParts (apiPrefixParts ++ ps) (UrlPath.split '/' req.pathSafe) = true)
    (hne : ps ≠ []) :
    ∃ raws : List Text, matchesParts ps (raws.map (UrlPath.unquote keepSlash)) = true ∧
      req.subpath = '/' :: UrlPath.join '/' (raws.map (UrlPath.unquote keepNothing)) := by
  have hsegs : UrlPath.split '/' req.pathSafe
      = (UrlPath.split '/' req.rawPath).map (UrlPath.unquote keepSlash) :=
    UrlPath.split_unquote (by rfl) req.rawPath
  rw [hsegs] at h
  have hpath : req.path
      = UrlPath.join '/' ((UrlPath.split '/' req.rawPath).map (UrlPath.unquote keepNothing)) := by
    rw [← UrlPath.unquote_join, UrlPath.join_split]; rfl
  -- name the raw segments: four for the prefix, then those of the route
  generalize UrlPath.split '/' req.rawPath = raw at h hpath
  simp only [apiPrefixParts, List.cons_append, List.nil_append, matchesParts_lit] at h
  obtain ⟨t1, h1, t2, h2, t3, h3, t4, h4, hps⟩ := h
  obtain ⟨r1, raw1, rfl, hr1, rfl⟩ := List.map_eq_cons_iff.mp h1
  obtain ⟨r2, raw2, rfl, hr2, rfl⟩ := List.map_eq_cons_iff.mp h2
  obtain ⟨r3, raw3, rfl, hr3, rfl⟩ := List.map_eq_cons_iff.mp h3
  obtain ⟨r4, raws, rfl, hr4, rfl⟩ := List.map_eq_cons_iff.mp h4
  refine ⟨raws, hps, ?_⟩
  have hraws : raws ≠ [] := by
    rintro rfl
    cases ps with
    | nil => exact hne rfl
    | cons p ps' => cases p <;> cases ps' <;> simp [matchesParts, matchesMatrixPath] at hps
  obtain ⟨r5, raws', rfl⟩ := List.exists_cons_of_ne_nil hraws
  simp only [List.map_cons, UrlPath.join_cons_cons,
    unquote_lit (by decide) hr1, unquote_lit (by decide) hr2,
    unquote_lit (by decide) hr3, unquote_lit (by decide) hr4] at hpath
  rw [Request.subpath, hpath]
  rfl

/-! ### Routes that cannot look open -/

/-- The fixed first segments of protected routes that are nowhere near an open path. -/
def closedHeads : List String :=
  ["version", "plugins", "plugin", "instances", "instance", "clients", "proxy", "debug"]

/-- The fixed start of the route differs from every open path. -/
def neverOpen : List Part → Bool
  | .lit "client" :: .lit s :: _ => s = "new" || s = "auth"
  | .lit s :: _                  => closedHeads.contains s
  | _                            => false

/-- A joined path begins with its first segment. -/
private theorem join_cons_eq (s : Text) (ss : List Text) :
    ∃ tail, UrlPath.join '/' (s :: ss) = s ++ tail ∧ (tail = [] ∨ ∃ u, tail = '/' :: u) := by
  cases ss with
  | nil => exact ⟨[], by simp, Or.inl rfl⟩
  | cons t ts => exact ⟨_, UrlPath.join_cons_cons '/' s t ts, Or.inr ⟨_, rfl⟩⟩

/-- A path that begins with a closed segment is not open. -/
private theorem not_isOpenPath_head {s : String} (hs : s ∈ closedHeads) (tail : Text) :
    isOpenPath ('/' :: (s.toList ++ tail)) = false := by
  simp only [closedHeads, List.mem_cons, List.not_mem_nil, or_false] at hs
  rcases hs with rfl | rfl | rfl | rfl | rfl | rfl | rfl | rfl <;> rfl

/-- A route whose fixed start is nowhere near an open path is never let through. -/
theorem isOpenPath_of_neverOpen {req : Request} {ps : List Part} (hps : neverOpen ps = true)
    (h : matchesParts (apiPrefixParts ++ ps) (UrlPath.split '/' req.pathSafe) = true) :
    isOpenPath req.subpath = false := by
  have hne : ps ≠ [] := by rintro rfl; simp [neverOpen] at hps
  obtain ⟨raws, hm, hsub⟩ := subpath_eq h hne
  rw [hsub]
  unfold neverOpen at hps
  split at hps
  · -- `/client/new` and `/client/auth/…`
    rename_i s rest
    simp only [matchesParts_lit] at hm
    obtain ⟨t1, h1, t2, h2, -⟩ := hm
    obtain ⟨r1, raws1, rfl, hr1, rfl⟩ := List.map_eq_cons_iff.mp h1
    obtain ⟨r2, raws2, rfl, hr2, rfl⟩ := List.map_eq_cons_iff.mp h2
    simp only [List.map_cons, UrlPath.join_cons_cons, unquote_lit (by decide) hr1]
    obtain ⟨tail, htail, hend⟩ :=
      join_cons_eq (UrlPath.unquote keepNothing r2) (raws2.map (UrlPath.unquote keepNothing))
    rw [htail]
    simp only [Bool.or_eq_true, decide_eq_true_eq] at hps
    rcases hps with rfl | rfl
    · rw [unquote_lit (by decide) hr2]; rfl
    · rw [unquote_lit (by decide) hr2]
      rcases hend with rfl | ⟨u, rfl⟩ <;> rfl
  · -- a first part that no open path begins with
    rename_i s rest _
    simp only [matchesParts_lit] at hm
    obtain ⟨t1, h1, -⟩ := hm
    obtain ⟨r1, raws1, rfl, hr1, rfl⟩ := List.map_eq_cons_iff.mp h1
    have hs : s ∈ closedHeads := by simpa using hps
    have hpc : '%' ∉ s.toList := by
      revert hs; simp only [closedHeads, List.mem_cons, List.not_mem_nil, or_false]
      rintro (rfl | rfl | rfl | rfl | rfl | rfl | rfl | rfl) <;> decide
    obtain ⟨tail, htail, -⟩ :=
      join_cons_eq (UrlPath.unquote keepNothing r1) (raws1.map (UrlPath.unquote keepNothing))
    rw [List.map_cons, htail, unquote_lit hpc hr1]
    exact not_isOpenPath_head hs tail
  · exact absurd hps (by simp)

/-! ### Every registered route -/

/-- The fixed start of an open route is not `/client/{id}`'s. -/
def openShape : List Part → Bool
  | .lit "client" :: ps => ps = [.lit "auth_external_sso", .lit "complete", .var]
  | .lit _ :: _         => true
  | _                   => false

/-- The routes of all modules but `client.py` and `dev_open.py`. -/
def plainRoutes : List Route :=
  baseRoutes ++ loginRoutes ++ pluginRoutes ++ pluginUploadRoutes ++ instanceRoutes ++
    instanceDatabaseRoutes ++ clientProxyRoutes ++ clientAuthRoutes ++ logRoutes

/-- A route of one of two lists. -/
theorem mem_ite {p : Prop} [Decidable p] {r : Route} {as bs : List Route}
    (h : r ∈ if p then as else bs) : (p ∧ r ∈ as) ∨ r ∈ bs := by
  by_cases hp : p
  · rw [if_pos hp] at h
    exact .inl ⟨hp, h⟩
  · rw [if_neg hp] at h
    exact .inr h

/-- The routes of a module are plain, of the clients or of their logins. -/
theorem mem_moduleRoutes {cfg : AuthConfig} {pkg : String} {r : Route}
    (hr : r ∈ moduleRoutes cfg pkg) :
    r ∈ plainRoutes ∨ ((pkg = "client" ∨ pkg = "client_auth") ∧ r ∈ clientRoutes) ∨
      r ∈ devOpenRoutes cfg := by
  unfold moduleRoutes at hr
  rcases mem_ite hr with ⟨-, hr⟩ | hr
  · exact .inl (by simp only [plainRoutes, List.mem_append, hr, true_or, or_true])
  rcases mem_ite hr with ⟨-, hr⟩ | hr
  · exact .inl (by simp only [plainRoutes, List.mem_append, hr, true_or, or_true])
  rcases mem_ite hr with ⟨-, hr⟩ | hr
  · exact .inl (by simp only [plainRoutes, List.mem_append, hr, true_or, or_true])
  rcases mem_ite hr with ⟨-, hr⟩ | hr
  · exact .inl (by simp only [plainRoutes, List.mem_append, hr, true_or, or_true])
  rcases mem_ite hr with ⟨-, hr⟩ | hr
  · exact .inl (by simp only [plainRoutes, List.mem_append, hr, true_or, or_true])
  rcases mem_ite hr with ⟨hclient, hr⟩ | hr
  · exact .inr (.inl ⟨.inl hclient, hr⟩)
  rcases mem_ite hr with ⟨-, hr⟩ | hr
  · exact .inl (by simp only [plainRoutes, List.mem_append, hr, true_or, or_true])
  rcases mem_ite hr with ⟨hauth, hr⟩ | hr
  · -- `client_auth.py` imports `client.py`
    rcases List.mem_append.mp hr with hr | hr
    · exact .inr (.inl ⟨.inr hauth, hr⟩)
    · exact .inl (by simp only [plainRoutes, List.mem_append, hr, true_or, or_true])
  rcases mem_ite hr with ⟨-, hr⟩ | hr
  · exact .inr (.inr hr)
  rcases mem_ite hr with ⟨-, hr⟩ | hr
  · exact .inl (by simp only [plainRoutes, List.mem_append, hr, or_true])
  cases hr

/-- A registered route is open on purpose, or starts nowhere near an open path, or is
    `/client/{id}` or one of its sub-resources. -/
theorem routes_cases {cfg : AuthConfig} {r : Route} (hr : r ∈ routes cfg) :
    (r.handler ∈ openHandlers ∧ openShape r.path = true) ∨ neverOpen r.path = true ∨
      (cfg.hasClientRoutes ∧ ∃ r' ∈ clientIdRoutes,
        r = { r' with path := .lit "client" :: .var :: r'.path }) := by
  have hclient : ∀ r ∈ clientRoutes, neverOpen r.path = true ∨ ∃ r' ∈ clientIdRoutes,
      r = { r' with path := .lit "client" :: .var :: r'.path } := by
    intro r hr
    rcases List.mem_append.mp hr with hr | hr
    · left; revert r; decide
    · obtain ⟨r', hr', rfl⟩ := List.mem_map.mp hr
      exact Or.inr ⟨r', hr', rfl⟩
  -- the tables of routes are closed terms, apart from those with the id of a client
  have hplain : ∀ r ∈ plainRoutes,
      (r.handler ∈ openHandlers ∧ openShape r.path = true) ∨ neverOpen r.path = true := by decide
  have hdev : ∀ r ∈ devOpenRoutes cfg, neverOpen r.path = true := by
    intro r hr
    unfold devOpenRoutes at hr
    revert r
    split <;> decide
  simp only [routes, List.mem_append, List.mem_flatMap, List.mem_filter] at hr
  rcases hr with hr | ⟨f, ⟨hf, hen⟩, hr⟩
  · have hmem : r ∈ plainRoutes := by simp only [plainRoutes, List.mem_append, hr, true_or]
    exact (hplain r hmem).imp_right Or.inl
  · rcases mem_moduleRoutes hr with hr | ⟨hname, hr⟩ | hr
    · exact (hplain r hr).imp_right Or.inl
    · exact Or.inr ((hclient r hr).imp_right fun h => ⟨⟨f, hf, hen, hname⟩, h⟩)
    · exact Or.inr (Or.inl (hdev r hr))

/-- The routes below a client's id are closed. -/
theorem clientIdRoutes_closed :
    ∀ r ∈ clientIdRoutes, r.handler ∉ openHandlers ∧ r.method ≠ "*" := by decide

/-- They are all there. -/
theorem clientIdRoute_mem {cfg : AuthConfig} (hc : cfg.hasClientRoutes) {r : Route}
    (hr : r ∈ clientIdRoutes) :
    { r with path := .lit "client" :: .var :: r.path } ∈ routes cfg := by
  obtain ⟨f, hf, hen, hname⟩ := hc
  have hmem : { r with path := .lit "client" :: .var :: r.path } ∈ clientRoutes :=
    List.mem_append_right _ (List.mem_map.mpr ⟨r, hr, rfl⟩)
  refine List.mem_append_right _ (List.mem_flatMap.mpr ⟨f, by simp [hf, hen], ?_⟩)
  rcases hname with h | h <;> rw [h]
  · exact hmem
  · exact List.mem_append_left _ hmem

/-- No open route matches where `/client/{id}` or a sub-resource does. -/
theorem not_openShape_of_clientId {req : Request} {r : Route} (hr : r ∈ clientIdRoutes)
    {ps : List Part} (hps : openShape ps = true)
    (hid : matchesParts (apiPrefixParts ++ .lit "client" :: .var :: r.path)
      (UrlPath.split '/' req.pathSafe) = true)
    (hm : matchesParts (apiPrefixParts ++ ps) (UrlPath.split '/' req.pathSafe) = true) :
    False := by
  generalize UrlPath.split '/' req.pathSafe = segs at hid hm
  have hlen : r.path = [] ∨ ∃ s, r.path = [.lit s] := by
    revert r; simp [clientIdRoutes, getRoutes]
  unfold openShape at hps
  split at hps
  · -- `complete_sso` has four segments, `/client/{id}/…` two or three
    simp only [decide_eq_true_eq] at hps
    subst hps
    rcases hlen with h | ⟨s, h⟩ <;> rw [h] at hid <;> simp [apiPrefixParts] at hid hm <;>
      obtain ⟨_, rfl, _⟩ := hid <;> simp at hm
  · rename_i s rest hs
    simp only [apiPrefixParts, List.cons_append, List.nil_append, matchesParts_lit] at hid hm
    obtain ⟨_, rfl, _, rfl, _, rfl, _, rfl, _, rfl, _⟩ := hid
    obtain ⟨_, h1, _, h2, _, h3, _, h4, _, h5, _⟩ := hm
    simp only [List.cons.injEq, true_and] at h1
    subst h1
    simp only [List.cons.injEq, true_and] at h2
    subst h2
    simp only [List.cons.injEq, true_and] at h3
    subst h3
    simp only [List.cons.injEq, true_and] at h4
    subst h4
    simp only [List.cons.injEq] at h5
    exact hs (String.toList_inj.mp h5.1).symm
  · exact absurd hps (by simp)

/-- Below `/client/{id}` only the test for `complete_sso`'s prefix can succeed. -/
theorem ssoCompletePrefix_of_isOpenPath {req : Request} {ps : List Part}
    (hm : matchesParts (apiPrefixParts ++ .lit "client" :: ps)
      (UrlPath.split '/' req.pathSafe) = true)
    (ho : isOpenPath req.subpath = true) : ssoCompletePrefix.isPrefixOf req.subpath = true := by
  obtain ⟨raws, hraws, hsub⟩ := subpath_eq hm (by simp)
  simp only [matchesParts_lit] at hraws
  obtain ⟨t, ht, -⟩ := hraws
  obtain ⟨r1, raws1, rfl, hr1, rfl⟩ := List.map_eq_cons_iff.mp ht
  obtain ⟨tail, htail, -⟩ :=
    join_cons_eq (UrlPath.unquote keepNothing r1) (raws1.map (UrlPath.unquote keepNothing))
  rw [hsub, List.map_cons, htail, unquote_lit (by decide) hr1] at ho ⊢
  simp only [isOpenPath, Bool.or_eq_true, decide_eq_true_eq] at ho
  rcases ho with ((h | h) | h) | h
  · exact absurd h (by intro h'; cases h')
  · exact h
  · exact absurd h (by intro h'; cases h')
  · exact absurd h (by intro h'; cases h')

/-! ### The result -/

/-- **When the middleware guards the protected handlers.**  A request without a valid token
    is stopped before any protected handler if and only if its decoded path does not pass
    for `complete_sso`'s while the router takes it for `/client/{id}` or a sub-resource. -/
theorem guarded_iff {cfg : AuthConfig} (router : Router cfg) (req : Request)
    (ht : ¬ HasValidToken cfg req) : Guarded router req ↔ ¬ SmuggledClientId cfg req := by
  constructor
  · -- the path counts as open, and the route of a client id takes it
    rintro hg ⟨hc, ⟨r, hr, hmeth, hmatch⟩, hsso⟩
    have hopen : isOpenPath req.subpath = true := by simp [isOpenPath, hsso]
    obtain ⟨h, hres⟩ : ∃ h, router.resolve req = some h :=
      router.exists_resolve_of_route (clientIdRoute_mem hc hr)
        (by simp [Route.matches, hmeth, hmatch])
    obtain ⟨r', hr', hm', rfl⟩ := Router.exists_route_of_resolve hres
    simp only [Route.matches, Bool.and_eq_true] at hm'
    rcases routes_cases hr' with ⟨-, hshape⟩ | hnever | ⟨-, r'', hr'', rfl⟩
    · exact not_openShape_of_clientId hr hshape hmatch hm'.2
    · rw [isOpenPath_of_neverOpen hnever hm'.2] at hopen
      exact absurd hopen (by simp)
    · obtain ⟨err, herr, -⟩ := hg _ hres (clientIdRoutes_closed r'' hr'').1
      rw [dispatch_of_isOpenPath _ hopen] at herr
      exact absurd herr (by simp)
  · -- a closed route is passed without a token only by such a path
    intro hns h hres hclosed
    obtain ⟨r, hr, hm, rfl⟩ := Router.exists_route_of_resolve hres
    simp only [Route.matches, Bool.and_eq_true, Bool.or_eq_true, decide_eq_true_eq] at hm
    rcases routes_cases hr with ⟨hopen, -⟩ | hnever | ⟨hc, r', hr', rfl⟩
    · exact absurd hopen hclosed
    · exact dispatch_of_not_isOpenPath _ (isOpenPath_of_neverOpen hnever hm.2) ht
    · cases ho : isOpenPath req.subpath with
      | false => exact dispatch_of_not_isOpenPath _ ho ht
      | true =>
        have hmeth : r'.method = req.method :=
          hm.1.resolve_left (clientIdRoutes_closed r' hr').2
        exact absurd ⟨hc, ⟨r', hr', hmeth, hm.2⟩, ssoCompletePrefix_of_isOpenPath hm.2 ho⟩ hns

/-! ### The request that gets through -/

namespace MiddlewareTest

/-- A configuration with the client API enabled, in which no token verifies. -/
def cfg : AuthConfig where
  unsharedSecret := "secret".toList
  admins := []
  apiFeatures := [("client", true), ("client_auth", true)]
  devOpenCfg := false
  verifyToken := fun _ _ => none

/-- `PUT /client/{id}` with the id `auth_external_sso/complete/x`, and no token. -/
def smuggledPut : Request where
  method := "PUT"
  rawPath := "/_matrix/maubot/v1/client/auth_external_sso%2Fcomplete%2Fx".toList

/-- `PUT /client/@bot:example.com`, and no token. -/
def plainPut : Request where
  method := "PUT"
  rawPath := "/_matrix/maubot/v1/client/%40bot%3Aexample.com".toList

/-- The request of the counterexample has no token. -/
theorem no_token (req : Request) : ¬ HasValidToken cfg req := by
  rintro ⟨-, h⟩
  have hnone : isValidToken cfg (getToken req) = false := rfl
  rw [hnone] at h
  cases h

end MiddlewareTest

open MiddlewareTest in
/-- Without a token, the router takes the request for `update_client` and the middleware
    lets it through. -/
theorem smuggledPut_not_guarded :
    (Router.inOrder cfg).resolve smuggledPut = some .updateClient ∧
      ¬ (¬ HasValidToken cfg smuggledPut → Guarded (Router.inOrder cfg) smuggledPut) := by
  have hres : (Router.inOrder cfg).resolve smuggledPut = some .updateClient := by decide
  refine ⟨hres, fun h => ?_⟩
  obtain ⟨err, herr, -⟩ := h (no_token _) .updateClient hres (by decide)
  rw [dispatch_of_isOpenPath _ (by decide)] at herr
  exact absurd herr (by simp)

open MiddlewareTest in
/-- An ordinary request for the same handler is stopped. -/
theorem plainPut_guarded :
    ¬ HasValidToken cfg plainPut ∧ Guarded (Router.inOrder cfg) plainPut :=
  ⟨no_token _, (guarded_iff (Router.inOrder cfg) plainPut (no_token _)).mpr
    fun h => absurd h.2.2 (by decide)⟩

end Maubot.Management
