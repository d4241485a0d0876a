import Mathlib.Data.List.TakeWhile
import Maubot.Errors
import Maubot.Lib.MultiDict

namespace Maubot.ClientProxy

/-!
# Requests on behalf of a client — `management/api/client_proxy.py`

The endpoint sends a request on to the homeserver of a client, as that client.  The token that
let the request in is maubot's own, in a header or in the query, and is not for the homeserver.

* `proxy` — the request that is sent, or the answer without one;
* `proxy_spec` — which requests are sent on, and what arrives;
* `proxy_noninterference` — nothing of maubot's token arrives.
-/

open MultiDict

abbrev Text := List Char

/-- The names of headers, in any letter case -/
def lower (name : Text) : Text := name.map Char.toLower

structure Request where
  /-- `match_info`, from the path -/
  userId  : Text
  path    : Text
  method  : Text
  query   : List (Text × Text)
  headers : List (Text × Text)
  /-- `peername`: two texts for IPv4, four for IPv6 -/
  peer    : Option (List Text)
  /-- what `read` gives, or what it raises: a body over `client_max_size`, a lost connection -/
  read    : Except PyExc (List UInt8)

structure Client where
  homeserver  : Text
  accessToken : Text

/-- What is sent to the homeserver -/
structure Upstream where
  method  : Text
  url     : Text
  headers : List (Text × Text)
  params  : List (Text × Text)
  data    : List UInt8

inductive Outcome
  | clientNotFound
  | crashed (e : PyExc)
  | sent (upstream : Upstream)

def host : Text := "Host".toList

def authorization : Text := "Authorization".toList

def forwardedFor : Text := "X-Forwarded-For".toList

def accessTokenParam : Text := "access_token".toList

/-- `del query["access_token"]`, without the `KeyError` -/
def cleanQuery (query : List (Text × Text)) : List (Text × Text) := delAll id query accessTokenParam

/-- The headers with the client's token and without `Host`, before the address is added -/
def ownHeaders (client : Client) (headers : List (Text × Text)) : List (Text × Text) :=
  setItem lower (delAll lower headers host) authorization ("Bearer ".toList ++ client.accessToken)

/-- The address of the other side of the connection -/
def addForwardedFor (peer : Option (List Text)) (headers : List (Text × Text)) :
    Except PyExc (List (Text × Text)) :=
  if contains lower headers forwardedFor then .ok headers
  else
    match peer with
    | none              => .ok headers
    | some [host, port] => .ok (setItem lower headers forwardedFor (host ++ ':' :: port))
    | some []           => .error ⟨.valueError, "not enough values to unpack (expected 2, got 0)"⟩
    | some [_]          => .error ⟨.valueError, "not enough values to unpack (expected 2, got 1)"⟩
    | some _            => .error ⟨.valueError, "too many values to unpack (expected 2)"⟩

/-- `proxy`; `get` is `Client.get`. -/
def proxy (get : Text → Option Client) (req : Request) : Outcome :=
  match get req.userId with
  | none        => .clientNotFound
  | some client =>
    if contains lower req.headers host = false then .crashed ⟨.keyError, "Host"⟩
    else
      match addForwardedFor req.peer (ownHeaders client req.headers) with
      | .error e    => .crashed e
      | .ok headers =>
        match req.read with
        | .error e => .crashed e
        | .ok data => .sent {
            method  := req.method
            url     := client.homeserver ++ '/' :: req.path
            headers
            params  := cleanQuery req.query
            data }

/-! ### What arrives -/

/-- The part of a URL behind the first `?`, up to a `#` -/
def rawQuery (url : Text) : Text := ((url.takeWhile (· ≠ '#')).dropWhile (· ≠ '?')).drop 1

/-- The parameters that the homeserver reads: those in the URL, then the ones given beside it.
    `parse` is the HTTP library's reader of queries. -/
def Upstream.query (parse : Text → List (Text × Text)) (u : Upstream) : List (Text × Text) :=
  parse (rawQuery u.url) ++ u.params

/-- A URL without `?` has no query. -/
theorem rawQuery_of_not_mem {url : Text} (h : '?' ∉ url) : rawQuery url = [] := by
  have hnone : (url.takeWhile (· ≠ '#')).dropWhile (· ≠ '?') = [] := by
    refine List.dropWhile_eq_nil_iff.mpr fun c hc => ?_
    have hmem : c ∈ url := (List.takeWhile_prefix _).subset hc
    exact decide_eq_true fun heq => h (heq ▸ hmem)
  rw [rawQuery, hnone]
  rfl

/-- A header of the request that is left as it is -/
def Untouched (name : Text) : Prop :=
  lower name ≠ lower host ∧ lower name ≠ lower authorization ∧ lower name ≠ lower forwardedFor

/-- The addresses in front of the homeserver -/
def addresses (req : Request) : List Text :=
  if contains lower req.headers forwardedFor then getAll lower req.headers forwardedFor
  else
    match req.peer with
    | some [host, port] => [host ++ ':' :: port]
    | _                 => []

/-- Whether the address of the other side is needed and cannot be had -/
def NoAddress (req : Request) : Prop :=
  contains lower req.headers forwardedFor = false ∧
    ∃ peer, req.peer = some peer ∧ peer.length ≠ 2

section Headers

variable {client : Client} {req : Request} {name : Text}

/-- Headers besides the host and the authorization are passed on. -/
theorem getAll_ownHeaders_ne (hhost : lower name ≠ lower host)
    (hauth : lower name ≠ lower authorization) (headers : List (Text × Text)) :
    getAll lower (ownHeaders client headers) name = getAll lower headers name := by
  rw [ownHeaders, getAll_setItem_ne hauth, getAll_delAll_ne hhost]

/-- So is the one with the addresses, -/
theorem getAll_forwardedFor (headers : List (Text × Text)) :
    getAll lower (ownHeaders client headers) forwardedFor = getAll lower headers forwardedFor :=
  getAll_ownHeaders_ne (by decide) (by decide) headers

/-- and whether it is there. -/
theorem contains_forwardedFor (headers : List (Text × Text)) :
    contains lower (ownHeaders client headers) forwardedFor =
      contains lower headers forwardedFor := by
  rw [Bool.eq_iff_iff, contains_iff, contains_iff, getAll_forwardedFor]

/-- It raises exactly where the peer has no address. -/
theorem addForwardedFor_error_iff : (∃ e, addForwardedFor req.peer
    (ownHeaders client req.headers) = .error e) ↔ NoAddress req := by
  unfold addForwardedFor NoAddress
  rw [contains_forwardedFor]
  cases hin : contains lower req.headers forwardedFor with
  | true => simp
  | false =>
    rw [if_neg Bool.false_ne_true]
    match req.peer with
    | none                     => simp
    | some []                  => simp
    | some [_]                 => simp
    | some [_, _]              => simp
    | some (_ :: _ :: _ :: _)  => simp

/-- The headers that are sent -/
theorem getAll_of_addForwardedFor {headers : List (Text × Text)}
    (h : addForwardedFor req.peer (ownHeaders client req.headers) = .ok headers) :
    getAll lower headers forwardedFor = addresses req ∧
      ∀ name, lower name ≠ lower forwardedFor →
        getAll lower headers name = getAll lower (ownHeaders client req.headers) name := by
  unfold addForwardedFor at h
  unfold addresses
  rw [contains_forwardedFor] at h
  cases hin : contains lower req.headers forwardedFor with
  | true =>
    rw [hin, if_pos rfl] at h
    obtain rfl := Except.ok.inj h
    rw [if_pos rfl]
    exact ⟨getAll_forwardedFor req.headers, fun name _ => rfl⟩
  | false =>
    have hnil : getAll lower req.headers forwardedFor = [] := by
      by_contra hne
      rw [contains_iff.mpr hne] at hin
      cases hin
    rw [hin, if_neg Bool.false_ne_true] at h
    rw [if_neg Bool.false_ne_true]
    split at h
    next hpeer =>
      obtain rfl := Except.ok.inj h
      rw [hpeer]
      exact ⟨(getAll_forwardedFor req.headers).trans hnil, fun name _ => rfl⟩
    next host port hpeer =>
      obtain rfl := Except.ok.inj h
      rw [hpeer]
      exact ⟨getAll_setItem_self rfl, fun name hne => getAll_setItem_ne hne⟩
    all_goals cases h

end Headers

/-- What is asked of a request that is sent on. -/
theorem exists_sent_iff (get : Text → Option Client) (req : Request) :
    (∃ upstream, proxy get req = .sent upstream) ↔
      (∃ client, get req.userId = some client) ∧ contains lower req.headers host = true ∧
        ¬ NoAddress req ∧ ∃ data, req.read = .ok data := by
  unfold proxy
  cases hget : get req.userId with
  | none => simp
  | some client =>
    cases hhost : contains lower req.headers host with
    | false => simp
    | true =>
      dsimp only
      rw [if_neg (by decide)]
      rw [← @addForwardedFor_error_iff client]
      cases addForwardedFor req.peer (ownHeaders client req.headers) with
      | error e => simp
      | ok headers => cases req.read <;> simp

/-- What a request that is sent on has, and what it has of the request that came -/
structure Passed (client : Client) (req : Request) (upstream : Upstream) : Prop where
  token     : getAll lower upstream.headers authorization =
    ["Bearer ".toList ++ client.accessToken]
  noHost    : getAll lower upstream.headers host = []
  addresses : getAll lower upstream.headers forwardedFor = addresses req
  headers   : ∀ name, Untouched name →
    getAll lower upstream.headers name = getAll lower req.headers name
  /-- what is in the path behind a `?` stays there -/
  query     : ∀ parse name, getAll id (upstream.query parse) name =
    getAll id (parse (rawQuery (client.homeserver ++ '/' :: req.path))) name ++
      if name = accessTokenParam then [] else getAll id req.query name
  noParam   : ∀ parse, parse [] = [] → '?' ∉ client.homeserver → '?' ∉ req.path →
    getAll id (upstream.query parse) accessTokenParam = []
  method    : upstream.method = req.method
  data      : req.read = .ok upstream.data
  url       : upstream.url = client.homeserver ++ '/' :: req.path

/-- What is sent on is what was asked, with the client's token. -/
theorem passed_of_sent {get : Text → Option Client} {req : Request} {upstream : Upstream}
    (h : proxy get req = .sent upstream) :
    ∃ client, get req.userId = some client ∧ Passed client req upstream := by
  unfold proxy at h
  cases hget : get req.userId with
  | none => rw [hget] at h; cases h
  | some client =>
    rw [hget] at h
    dsimp only at h
    split at h
    · cases h
    cases hadd : addForwardedFor req.peer (ownHeaders client req.headers) with
    | error e => rw [hadd] at h; cases h
    | ok headers =>
      rw [hadd] at h
      cases hread : req.read with
      | error e => rw [hread] at h; cases h
      | ok data =>
      rw [hread] at h
      cases h
      -- only the header with the addresses is touched by the last step
      obtain ⟨haddresses, hrest⟩ := getAll_of_addForwardedFor hadd
      have hparams (name : Text) : getAll id (cleanQuery req.query) name =
          if name = accessTokenParam then [] else getAll id req.query name := by
        split
        · next hname => exact getAll_delAll_self hname
        · next hname => exact getAll_delAll_ne hname
      refine ⟨client, rfl, ?_, ?_, haddresses, fun name hname => ?_, fun parse name => ?_,
        fun parse hparse hhomeserver hpath => ?_, rfl, hread, rfl⟩
      · rw [hrest authorization (by decide)]
        exact getAll_setItem_self rfl
      · rw [hrest host (by decide), ownHeaders, getAll_setItem_ne (by decide)]
        exact getAll_delAll_self rfl
      · obtain ⟨hhost, hauth, hforwarded⟩ := hname
        rw [hrest name hforwarded, getAll_ownHeaders_ne hhost hauth]
      · rw [Upstream.query, getAll_append, hparams]
      · have hurl : '?' ∉ client.homeserver ++ '/' :: req.path := by
          simpa [hhomeserver] using hpath
        rw [Upstream.query, getAll_append, hparams, if_pos rfl, rawQuery_of_not_mem hurl, hparse]
        rfl

/-- **What the homeserver gets.**  A request is sent on exactly for a client that is there, with a
    `Host`, an address that can be told and a body that can be read; it has the client's token and
    no other, no `Host`, no `access_token` of the query, and for the rest what the request had.
    The path comes decoded, so a `%3F` in it begins a query of its own. -/
theorem proxy_spec (get : Text → Option Client) (req : Request) :
    ((∃ upstream, proxy get req = .sent upstream) ↔
      (∃ client, get req.userId = some client) ∧ contains lower req.headers host = true ∧
        ¬ NoAddress req ∧ ∃ data, req.read = .ok data) ∧
    ∀ upstream, proxy get req = .sent upstream →
      ∃ client, get req.userId = some client ∧ Passed client req upstream :=
  ⟨exists_sent_iff get req, fun _ => passed_of_sent⟩

/-! ### The token -/

/-- Two requests that differ in maubot's token only, wherever it stands -/
structure SameButToken (req req' : Request) : Prop where
  userId  : req.userId = req'.userId
  path    : req.path = req'.path
  method  : req.method = req'.method
  peer    : req.peer = req'.peer
  read    : req.read = req'.read
  headers : ∀ name, lower name ≠ lower authorization →
    getAll lower req.headers name = getAll lower req'.headers name
  query   : ∀ name ≠ accessTokenParam, getAll id req.query name = getAll id req'.query name

/-- What the homeserver can tell apart -/
structure Upstream.Alike (u u' : Upstream) : Prop where
  method  : u.method = u'.method
  url     : u.url = u'.url
  data    : u.data = u'.data
  headers : Same lower u.headers u'.headers
  params  : Same id u.params u'.params

/-- The outcomes of two requests that look the same from outside -/
def Outcome.Alike : Outcome → Outcome → Prop
  | .clientNotFound, .clientNotFound => True
  | .crashed e, .crashed e'          => e = e'
  | .sent u, .sent u'                => u.Alike u'
  | _, _                             => False

/-- Requests that differ in the token contain the same other headers. -/
theorem SameButToken.contains {req req' : Request} (h : SameButToken req req') {name : Text}
    (hname : lower name ≠ lower authorization) :
    MultiDict.contains lower req.headers name = MultiDict.contains lower req'.headers name := by
  rw [Bool.eq_iff_iff, contains_iff, contains_iff, h.headers name hname]

/-- With the client's token they have the same headers. -/
theorem SameButToken.ownHeaders {req req' : Request} (h : SameButToken req req')
    (client : Client) :
    Same lower (ownHeaders client req.headers) (ownHeaders client req'.headers) := by
  refine Same.setItem fun name hname => ?_
  by_cases hhost : lower name = lower host
  · rw [getAll_delAll_self hhost, getAll_delAll_self hhost]
  · rw [getAll_delAll_ne hhost, getAll_delAll_ne hhost, h.headers name hname]

/-- So the address is added to both or to neither. -/
theorem addForwardedFor_congr {peer : Option (List Text)} {headers headers' : List (Text × Text)}
    (h : Same lower headers headers') :
    (∃ e, addForwardedFor peer headers = .error e ∧ addForwardedFor peer headers' = .error e) ∨
      ∃ l l', addForwardedFor peer headers = .ok l ∧ addForwardedFor peer headers' = .ok l' ∧
        Same lower l l' := by
  unfold addForwardedFor
  rw [← h.contains]
  split
  · exact .inr ⟨_, _, rfl, rfl, h⟩
  · split
    · exact .inr ⟨_, _, rfl, rfl, h⟩
    · exact .inr ⟨_, _, rfl, rfl, Same.setItem fun k _ => h k⟩
    all_goals exact .inl ⟨_, rfl, rfl⟩

/-- **Nothing of maubot's token arrives.**  Two requests that differ in it only have the same
    outcome, and the homeserver cannot tell them apart. -/
theorem proxy_noninterference (get : Text → Option Client) {req req' : Request}
    (h : SameButToken req req') : (proxy get req).Alike (proxy get req') := by
  unfold proxy
  rw [← h.userId, ← @SameButToken.contains _ _ h host (by decide)]
  cases get req.userId with
  | none => trivial
  | some client =>
    dsimp only
    split
    · rfl
    · rw [← h.peer]
      rcases @addForwardedFor_congr req.peer _ _ (h.ownHeaders client) with
        ⟨e, he, he'⟩ | ⟨l, l', hl, hl', hsame⟩
      · rw [he, he']
        rfl
      · rw [hl, hl', ← h.read]
        cases req.read with
        | error e => rfl
        | ok data =>
          refine ⟨h.method, ?_, rfl, hsame, Same.delAll h.query⟩
          dsimp only
          rw [h.path]

/-- The token in the query, and in a header -/
theorem proxy_noninterference_sample :
    (proxy (fun _ => some ⟨"https://example.com".toList, "secret".toList⟩)
      ⟨"@a:b".toList, "_matrix".toList, "GET".toList, [(accessTokenParam, "t".toList)],
        [(host, "maubot".toList)], none, .ok []⟩).Alike
    (proxy (fun _ => some ⟨"https://example.com".toList, "secret".toList⟩)
      ⟨"@a:b".toList, "_matrix".toList, "GET".toList, [],
        [("AUTHORIZATION".toList, "Bearer t".toList), (host, "maubot".toList)], none, .ok []⟩) := by
  refine proxy_noninterference _
    ⟨rfl, rfl, rfl, rfl, rfl, fun name hname => ?_, fun name hname => ?_⟩
  · have hlower : lower "AUTHORIZATION".toList = lower authorization := by decide
    exact (getAll_cons_ne (hlower.trans_ne hname.symm)).symm
  · exact getAll_cons_ne hname.symm

end Maubot.ClientProxy
