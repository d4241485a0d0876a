import Maubot.Config
import Maubot.Errors
import Maubot.Lib.Runs

namespace Maubot.Login

/-!
# Logging in — `management/api/login.py`, `auth.py` and `config.py`

A token names a user and is signed with a secret of the configuration; nothing else is kept of it.
The server is started again and again, each time with what the update makes of a configuration.

* `login`, `ping`, `checkPassword`, `isAdmin` — the endpoints, with what they read;
* `World`, `Event`, `step` — the server, with the tokens that it gave out;
* `ping_pong_iff` — which tokens are accepted, in every run;
* `password_logs_in` — the password of a configuration, through every restart.
-/

open Maubot.Configuration

/-- What the server reads of the configuration to let users in -/
structure Server (A : Type) where
  /-- `server.unshared_secret` -/
  unsharedSecret : Text
  admins         : List (Text × Value A)

/-- What bcrypt and mautrix do -/
structure Crypto (A : Type) where
  /-- `bcrypt.checkpw`, of a password and a hash -/
  checkpw     : Text → Text → Except PyExc Bool
  /-- `sign_token`, with a key, for a `user_id` and a `created_at` -/
  signToken   : Text → Value A → Nat → Text
  /-- the `user_id` of the payload, null if it has none; `none` for what is not signed with the
      key, or an empty payload -/
  verifyToken : Text → Text → Option (Value A)

inductive AuthResponse (A : Type)
  | bodyNotJson
  | loggedIn (token : Text)
  | badAuth
  | noToken
  | invalidToken
  | pong (user : Value A)
  /-- an exception in the handler: the server answers 500 -/
  | crashed (e : PyExc)

variable {A : Type} (K : Crypto A) (L : Library A)

def root : Value A := str "root"

/-- A dictionary looks for its keys by their hashes, which lists and dictionaries do not have. -/
def unhashable : PyExc := ⟨.typeError, "unhashable type"⟩

namespace Server

variable (s : Server A)

/-- `is_admin` -/
def isAdmin (user : Value A) : Except PyExc Bool :=
  match user with
  | .text u            => .ok (u = "root".toList || (s.admins.lookup u).isSome)
  | .list _ | .dict _  => .error unhashable
  | _                  => .ok false

/-- `check_password` -/
def checkPassword (user passwd : Value A) : Except PyExc Bool :=
  match user with
  | .text u            =>
    if u = "root".toList then .ok false
    else
      match s.admins.lookup u with
      | none            => .ok false
      | some passwdHash =>
        if passwdHash.truthy L = false then .ok false
        else
          match passwd, passwdHash with
          | .text p, .text h => K.checkpw p h
          | _, _             => .error ⟨.attributeError, "object has no attribute 'encode'"⟩
  | .list _ | .dict _  => .error unhashable
  | _                  => .ok false

/-- `create_token` -/
def createToken (now : Nat) (user : Value A) : Text := K.signToken s.unsharedSecret user now

end Server

/-! ### The endpoints -/

/-- `data.get(key)` -/
def field (data : List (Text × Value A)) (key : String) : Value A :=
  (data.lookup key.toList).getD .null

/-- Whether `secret and get_config()["server.unshared_secret"] == secret` -/
def isSecret (s : Server A) (secret : Value A) : Bool :=
  match secret with
  | .text t => t ≠ [] && s.unsharedSecret == t
  | _       => false

/-- The user that a login is for, if it succeeds -/
def loginUser (s : Server A) (data : List (Text × Value A)) : Except PyExc (Option (Value A)) :=
  if isSecret s (field data "secret") then
    .ok (some (if (field data "user").truthy L then field data "user" else root))
  else
    match s.checkPassword K L (field data "username") (field data "password") with
    | .error e   => .error e
    | .ok true   => .ok (some (field data "username"))
    | .ok false  => .ok none

/-- `login`; the body is `none` if it is not JSON. -/
def login (s : Server A) (now : Nat) (body : Option (Value A)) : AuthResponse A :=
  match body with
  | none              => .bodyNotJson
  | some (.dict data) =>
    match loginUser K L s data with
    | .error e        => .crashed e
    | .ok none        => .badAuth
    | .ok (some user) => .loggedIn (s.createToken K now user)
  | some _            => .crashed ⟨.attributeError, "object has no attribute 'get'"⟩

/-- `ping`, with the token of the request -/
def ping (s : Server A) (token : Text) : AuthResponse A :=
  if token = [] then .noToken
  else
    match K.verifyToken s.unsharedSecret token with
    | none      => .invalidToken
    | some user =>
      match s.isAdmin user with
      | .error e  => .crashed e
      | .ok false => .invalidToken
      | .ok true  => .pong user

/-- Admins are texts. -/
theorem text_of_isAdmin {s : Server A} {user : Value A} (h : s.isAdmin user = .ok true) :
    ∃ u, user = .text u := by
  cases user with
  | text u => exact ⟨u, rfl⟩
  | _      => cases h

/-- A pong is for a token that verifies and whose user is an admin. -/
theorem ping_eq_pong_iff {s : Server A} {token : Text} {user : Value A} :
    ping K s token = .pong user ↔ token ≠ [] ∧
      K.verifyToken s.unsharedSecret token = some user ∧ s.isAdmin user = .ok true := by
  unfold ping
  by_cases htoken : token = []
  · simp [htoken]
  rw [if_neg htoken]
  cases hverify : K.verifyToken s.unsharedSecret token with
  | none => simp
  | some user' =>
    dsimp only
    -- the token names a user, who has to be an admin
    cases hadmin : s.isAdmin user' with
    | error e =>
      refine ⟨nofun, fun ⟨_, heq, h⟩ => ?_⟩
      rw [Option.some.inj heq, h] at hadmin
      cases hadmin
    | ok b =>
      cases b with
      | false =>
        refine ⟨nofun, fun ⟨_, heq, h⟩ => ?_⟩
        rw [Option.some.inj heq, h] at hadmin
        cases hadmin
      | true =>
        constructor
        · intro h
          cases h
          exact ⟨htoken, rfl, hadmin⟩
        · rintro ⟨-, heq, -⟩
          rw [Option.some.inj heq]

/-! ### Who is let in -/

/-- A login with the secret, for the given user or for root -/
def BySecret (L : Library A) (s : Server A) (data : List (Text × Value A)) (user : Value A) :
    Prop :=
  ∃ t ≠ [], field data "secret" = .text t ∧ s.unsharedSecret = t ∧
    user = if (field data "user").truthy L then field data "user" else root

/-- A login with the password of a user who has one, and is not root -/
def ByPassword (K : Crypto A) (s : Server A) (data : List (Text × Value A)) (user : Value A) :
    Prop :=
  ∃ u p h, user = .text u ∧ field data "username" = .text u ∧ field data "password" = .text p ∧
    u ≠ "root".toList ∧ s.admins.lookup u = some (.text h) ∧ h ≠ [] ∧ K.checkpw p h = .ok true

/-- The secret is a text that is not empty and the server's. -/
theorem isSecret_iff {s : Server A} {secret : Value A} :
    isSecret s secret = true ↔ ∃ t ≠ [], secret = .text t ∧ s.unsharedSecret = t := by
  unfold isSecret
  cases secret with
  | text t =>
    rw [Bool.and_eq_true, decide_eq_true_eq, beq_iff_eq]
    exact ⟨fun h => ⟨t, h.1, rfl, h.2⟩, fun ⟨t', hne, ht, hs⟩ => by cases ht; exact ⟨hne, hs⟩⟩
  | _ => exact ⟨nofun, fun ⟨_, _, ht, _⟩ => by cases ht⟩

/-- A password is right for a user other than `root` whose hash it fits. -/
theorem checkPassword_eq_true_iff {s : Server A} {user passwd : Value A} :
    s.checkPassword K L user passwd = .ok true ↔
      ∃ u p h, user = .text u ∧ passwd = .text p ∧ u ≠ "root".toList ∧
        s.admins.lookup u = some (.text h) ∧ h ≠ [] ∧ K.checkpw p h = .ok true := by
  constructor
  · -- every branch but the last answers false
    intro hcheck
    cases user with
    | text u =>
      unfold Server.checkPassword at hcheck
      dsimp only at hcheck
      split at hcheck
      · cases hcheck
      next hroot =>
      split at hcheck
      · cases hcheck
      next passwdHash hlookup =>
      split at hcheck
      · cases hcheck
      next htruthy =>
      split at hcheck
      next p h =>
        have hne : h ≠ [] := by
          rintro rfl
          exact htruthy rfl
        exact ⟨u, p, h, rfl, rfl, hroot, hlookup, hne, hcheck⟩
      · cases hcheck
    | _ => cases hcheck
  · -- and the last one asks bcrypt
    rintro ⟨u, p, h, rfl, rfl, hroot, hlookup, hne, hcheck⟩
    have htruthy : (Value.text h : Value A).truthy L = true := decide_eq_true hne
    unfold Server.checkPassword
    dsimp only
    rw [if_neg hroot, hlookup]
    dsimp only
    rw [if_neg (by rw [htruthy]; decide)]
    exact hcheck

/-- A user logs in by the secret, or by a password where no secret is given. -/
theorem loginUser_eq_some_iff {s : Server A} {data : List (Text × Value A)} {user : Value A} :
    loginUser K L s data = .ok (some user) ↔
      BySecret L s data user ∨
        (isSecret s (field data "secret") = false ∧ ByPassword K s data user) := by
  unfold loginUser
  cases hsecret : isSecret s (field data "secret") with
  -- with the secret the user is taken as it is given
  | true =>
    rw [if_pos rfl]
    obtain ⟨t, hne, ht, hs⟩ := isSecret_iff.mp hsecret
    constructor
    · intro h
      exact .inl ⟨t, hne, ht, hs, (Option.some.inj (Except.ok.inj h)).symm⟩
    · rintro (⟨-, -, -, -, rfl⟩ | ⟨hfalse, -⟩)
      · rfl
      · cases hfalse
  -- without it the password decides
  | false =>
    rw [if_neg Bool.false_ne_true]
    have hnot : ¬ BySecret L s data user := by
      rintro ⟨t, hne, ht, hs, -⟩
      rw [isSecret_iff.mpr ⟨t, hne, ht, hs⟩] at hsecret
      cases hsecret
    constructor
    · intro h
      cases hcheck : s.checkPassword K L (field data "username") (field data "password") with
      | error e => rw [hcheck] at h; cases h
      | ok b =>
        rw [hcheck] at h
        cases b with
        | false => cases h
        | true =>
          obtain ⟨u, p, hash, hu, hp, hroot, hlookup, hne, hpw⟩ :=
            (checkPassword_eq_true_iff K L).mp hcheck
          have huser := (Option.some.inj (Except.ok.inj h)).symm
          exact .inr ⟨rfl, u, p, hash, huser.trans hu, hu, hp, hroot, hlookup, hne, hpw⟩
    · rintro (h | ⟨-, u, p, hash, rfl, hu, hp, hroot, hlookup, hne, hpw⟩)
      · exact absurd h hnot
      · rw [(checkPassword_eq_true_iff K L).mpr ⟨u, p, hash, hu, hp, hroot, hlookup, hne, hpw⟩, hu]

/-! ### The server, started again and again -/

/-- A token that the server gave out, with the server as it was then -/
structure Grant (A : Type) where
  token  : Text
  user   : Value A
  server : Server A
  data   : List (Text × Value A)

structure World (A : Type) where
  server : Server A
  issued : List (Grant A) := []

/-- What the server reads of a configuration; the secret is a text. -/
def serverOf (m : Config A) : Option (Server A) :=
  match m.get "server.unshared_secret", m.get "admins" with
  | .text secret, .dict admins => some ⟨secret, admins⟩
  | _, _                       => none

inductive Event (A : Type)
  /-- The server is started with a configuration. -/
  | start (c : Config A) (D : Draws)
  /-- `POST /auth/login`, at a time -/
  | login (now : Nat) (body : Option (Value A))
  /-- Another request, with a token -/
  | request (token : Text)

/-- The token that a login gives out -/
def grantOf (s : Server A) (now : Nat) (body : Option (Value A)) : Option (Grant A) :=
  match body with
  | some (.dict data) =>
    match loginUser K L s data with
    | .ok (some user) => some ⟨s.createToken K now user, user, s, data⟩
    | _               => none
  | _                 => none

/-- The server after an event.  Without a configuration that it can work with it does not start. -/
def step (e : Event A) (w : World A) : World A :=
  match e with
  | .start c D      =>
    match (doUpdate L D c).bind serverOf with
    | some s => { w with server := s }
    | none   => w
  | .login now body => { w with issued := (grantOf K L w.server now body).toList ++ w.issued }
  | .request _      => w

/-- Nobody but the server signs tokens. -/
def Unforged (w : World A) (token : Text) : Prop :=
  ∀ user, K.verifyToken w.server.unsharedSecret token = some user →
    ∃ g ∈ w.issued, g.token = token

/-- Requests have tokens that the server gave out, or that are none. -/
def Allowed (w : World A) (e : Event A) : Prop :=
  match e with
  | .request token => Unforged K w token
  | _              => True

/-- A token was signed for its user, who was let in. -/
structure Grant.Earned (g : Grant A) : Prop where
  signed : ∃ now, g.token = K.signToken g.server.unsharedSecret g.user now
  letIn  : BySecret L g.server g.data g.user ∨ ByPassword K g.server g.data g.user

/-- Who is logged in gets the token of a grant. -/
theorem login_eq_loggedIn_iff {s : Server A} {now : Nat} {body : Option (Value A)}
    {token : Text} :
    login K L s now body = .loggedIn token ↔
      ∃ g, grantOf K L s now body = some g ∧ g.token = token := by
  unfold login grantOf
  cases body with
  | none => exact ⟨nofun, fun ⟨_, h, _⟩ => by cases h⟩
  | some body =>
    cases body with
    | dict data =>
      dsimp only
      cases loginUser K L s data with
      | error e => exact ⟨nofun, fun ⟨_, h, _⟩ => by cases h⟩
      | ok user =>
        cases user with
        | none      => exact ⟨nofun, fun ⟨_, h, _⟩ => by cases h⟩
        | some user => simp
    | _ => exact ⟨nofun, fun ⟨_, h, _⟩ => by cases h⟩

/-- A grant is earned by what the body says. -/
theorem earned_of_grantOf {s : Server A} {now : Nat} {body : Option (Value A)} {g : Grant A}
    (h : grantOf K L s now body = some g) : g.Earned K L := by
  unfold grantOf at h
  split at h
  next data =>
    split at h
    next user hlogin =>
      obtain rfl := Option.some.inj h
      exact ⟨⟨now, rfl⟩, ((loginUser_eq_some_iff K L).mp hlogin).imp_right And.right⟩
    next => cases h
  next => cases h

/-- So all tokens that are issued have been earned. -/
theorem earned_step {w : World A} (e : Event A) (h : ∀ g ∈ w.issued, g.Earned K L) :
    ∀ g ∈ (step K L e w).issued, g.Earned K L := by
  cases e with
  | start c D =>
    unfold step
    dsimp only
    split <;> exact h
  | login now body =>
    intro g hg
    rcases List.mem_append.mp hg with hnew | hold
    · exact earned_of_grantOf K L (Option.mem_toList.mp hnew)
    · exact h g hold
  | request token => exact h

/-- **Which tokens are accepted**, after any restarts, logins and requests: those that a login gave
    out under the secret of now, to a user who is an admin now; and then that user had the secret,
    or the password of an admin. -/
theorem ping_pong_iff
    (hsign : ∀ key u now, K.verifyToken key (K.signToken key (.text u) now) = some (.text u))
    (hverified : ∀ key key' user user' now,
      K.verifyToken key' (K.signToken key user now) = some user' → key' = key ∧ user' = user)
    (hempty : ∀ key, K.verifyToken key [] = none)
    {s : Server A} {w : World A} (hrun : Reach (step K L) (Allowed K) ⟨s, []⟩ w)
    {token : Text} (htoken : Unforged K w token) (user : Value A) :
    ping K w.server token = .pong user ↔
      w.server.isAdmin user = .ok true ∧ ∃ g ∈ w.issued, g.token = token ∧ g.user = user ∧
        g.server.unsharedSecret = w.server.unsharedSecret ∧
        (BySecret L g.server g.data user ∨ ByPassword K g.server g.data user) := by
  -- each token that was issued was earned
  have hearned : ∀ g ∈ w.issued, g.Earned K L :=
    hrun.invariant (I := fun w => ∀ g ∈ w.issued, g.Earned K L) nofun
      fun w e h _ => earned_step K L e h
  rw [ping_eq_pong_iff]
  constructor
  · rintro ⟨-, hverify, hadmin⟩
    -- a token that verifies was issued, and its key is that of the secret
    obtain ⟨g, hg, rfl⟩ := htoken user hverify
    obtain ⟨⟨now, hsigned⟩, hletIn⟩ := hearned g hg
    rw [hsigned] at hverify
    obtain ⟨hsecret, rfl⟩ := hverified _ _ _ _ _ hverify
    exact ⟨hadmin, g, hg, rfl, rfl, hsecret.symm, hletIn⟩
  · rintro ⟨hadmin, g, hg, rfl, rfl, hsecret, -⟩
    obtain ⟨⟨now, hsigned⟩, -⟩ := hearned g hg
    obtain ⟨u, hu⟩ := text_of_isAdmin hadmin
    have hverify : K.verifyToken w.server.unsharedSecret g.token = some g.user := by
      rw [hsigned, hsecret, hu, hsign]
    refine ⟨fun hnil => ?_, hverify, hadmin⟩
    rw [hnil, hempty] at hverify
    cases hverify

/-! ### The password of a configuration -/

section Passwords

variable {D : Draws} {c m : Config A}

/-- The entry of a user is updated in its place. -/
theorem lookup_updatePasswords {entries entries' : List (Text × Value A)} {u : Text}
    {password : Value A} (h : updatePasswords L D entries = some entries')
    (hu : entries.lookup u = some password) :
    ∃ password', updatePassword L D u password = some password' ∧
      entries'.lookup u = some password' := by
  induction entries generalizing entries' with
  | nil => cases hu
  | cons e entries ih =>
    obtain ⟨username, first⟩ := e
    obtain ⟨first', hfirst, h⟩ := Option.bind_eq_some_iff.mp h
    obtain ⟨rest', hrest, h⟩ := Option.bind_eq_some_iff.mp h
    obtain rfl := Option.some.inj h
    rw [List.lookup_cons] at hu ⊢
    by_cases heq : u = username
    · subst heq
      rw [beq_self_eq_true] at hu ⊢
      obtain rfl := Option.some.inj hu
      exact ⟨first', hfirst, rfl⟩
    · rw [beq_false_of_ne heq] at hu ⊢
      exact ih hrest hu

/-- The server's starts after the first one, each with the configuration that was written -/
def restarts (L : Library A) (m : Config A) (Ds : List Draws) : Option (Config A) :=
  Ds.foldlM (fun m D => doUpdate L D m) m

/-- What was written can be updated again, whatever the configuration was. -/
theorem exists_update_again (h : Written L D c m) (D' : Draws) :
    ∃ m', doUpdate L D' m = some m' := by
  obtain ⟨entries, hentries, -⟩ := admins_again D' h
  obtain ⟨v, hv, hm⟩ := h.database
  obtain ⟨t, rfl⟩ : ∃ t, v = .text t := by
    unfold newDatabase at hv
    split at hv
    · split at hv
      · exact ⟨_, (Option.some.inj hv).symm⟩
      · cases hv
    · exact ⟨_, (Option.some.inj hv).symm⟩
  have hin : m.contains L "database" = true := contains_iff.mpr ⟨_, hm, nofun⟩
  exact exists_doUpdate (newDatabase_of_text hin (get_eq hm)) hentries

/-- The secret and the admins are the same after every restart. -/
theorem exists_restarts (h : Written L D c m) (Ds : List Draws) :
    ∃ m', restarts L m Ds = some m' ∧ m' "server.unshared_secret" = m "server.unshared_secret" ∧
      m' "admins" = m "admins" := by
  induction Ds generalizing D c m with
  | nil => exact ⟨m, rfl, rfl, rfl⟩
  | cons D' Ds ih =>
    obtain ⟨m₁, hm₁⟩ := exists_update_again L h D'
    have h₁ := written_of_doUpdate hm₁
    have hsecret : m₁ "server.unshared_secret" = m "server.unshared_secret" :=
      h₁.unsharedSecret.trans (unsharedSecret_again D' h).symm
    have hadmins : m₁ "admins" = m "admins" := by
      obtain ⟨entries, hentries, hm⟩ := admins_again D' h
      obtain ⟨entries', hentries', hm'⟩ := h₁.admins
      rw [hm, hm', Option.some.inj (hentries.symm.trans hentries')]
    obtain ⟨m', hm', hsecret', hadmins'⟩ := ih h₁
    refine ⟨m', ?_, hsecret'.trans hsecret, hadmins'.trans hadmins⟩
    rw [restarts, List.foldlM_cons, hm₁]
    exact hm'

/-- The body of a login with a password -/
def credentials (u p : Text) : Value A := dict [("username", .text u), ("password", .text p)]

/-- A user with a hash logs in as the hash says. -/
theorem login_credentials {s : Server A} {u p hash : Text} {b : Bool} (now : Nat)
    (hu : u ≠ "root".toList) (hlookup : s.admins.lookup u = some (.text hash)) (hne : hash ≠ [])
    (hcheck : K.checkpw p hash = .ok b) :
    login K L s now (some (credentials u p)) =
      if b then .loggedIn (s.createToken K now (.text u)) else .badAuth := by
  have hpassword : s.checkPassword K L (.text u) (.text p) = .ok b := by
    have htruthy : (Value.text hash : Value A).truthy L = true := decide_eq_true hne
    unfold Server.checkPassword
    dsimp only
    rw [if_neg hu, hlookup]
    dsimp only
    rw [if_neg (by rw [htruthy]; decide)]
    exact hcheck
  have huser : loginUser K L s [("username".toList, .text u), ("password".toList, .text p)] =
      match s.checkPassword K L (.text u) (.text p) with
      | .error e   => .error e
      | .ok true   => .ok (some (.text u))
      | .ok false  => .ok none := rfl
  rw [hpassword] at huser
  change (match loginUser K L s [("username".toList, .text u), ("password".toList, .text p)] with
    | .error e        => _
    | .ok none        => _
    | .ok (some user) => _) = _
  rw [huser]
  cases b <;> rfl

/-- **The password of a configuration** lets its user, who is not root, in after the update that
    hashes it, and after every restart; the token is accepted after every later one.  The default
    password is not what is hashed, and what bcrypt does not take for the password does not let
    anyone in. -/
theorem password_logs_in
    (hsign : ∀ key u now, K.verifyToken key (K.signToken key (.text u) now) = some (.text u))
    (hempty : ∀ key, K.verifyToken key [] = none)
    (hm : doUpdate L D c = some m) {secret : Text}
    (hsecret : newUnsharedSecret D c = .text secret) {entries : List (Text × Value A)}
    (hadmins : taken L c "admins" = some (.dict entries)) {u p : Text} (hu : u ≠ "root".toList)
    (hp : entries.lookup u = some (.text p)) (hne : p ≠ []) (hplain : bcryptRegex p = false) :
    ∃ hash, D.hashpw u (if p = "password".toList then D.passwordToken u else p) = some hash ∧
      ∀ Ds Ds', ∃ s s', (restarts L m Ds).bind serverOf = some s ∧
        (restarts L m (Ds ++ Ds')).bind serverOf = some s' ∧ ∀ q now,
          (K.checkpw q hash = .ok true →
            ∃ token, login K L s now (some (credentials u q)) = .loggedIn token ∧
              ping K s' token = .pong (.text u)) ∧
          (K.checkpw q hash = .ok false →
            login K L s now (some (credentials u q)) = .badAuth) := by
  have hwritten := written_of_doUpdate hm
  -- the hash of the password
  obtain ⟨entries', hentries', hmadmins⟩ := hwritten.admins
  rw [newAdmins, hadmins] at hentries'
  obtain ⟨password', hpassword', hlookup⟩ := lookup_updatePasswords L hentries' hp
  have htruthy : (Value.text p : Value A).truthy L = true := decide_eq_true hne
  rw [updatePassword, if_pos htruthy] at hpassword'
  rw [if_neg (by rw [hplain]; decide)] at hpassword'
  obtain ⟨hash, hhash, rfl⟩ := Option.map_eq_some_iff.mp hpassword'
  have hhashne : hash ≠ [] := by
    rintro rfl
    exact absurd (D.hashpw_matches _ _ _ hhash) (by decide)
  -- the server, after every restart
  have hrestarts : ∀ Ds, (restarts L m Ds).bind serverOf = some ⟨secret, entries'⟩ := by
    intro Ds
    obtain ⟨m', hm', hsecret', hadmins'⟩ := exists_restarts L hwritten Ds
    rw [hm', Option.bind_some, serverOf, get_eq (hsecret'.trans hwritten.unsharedSecret),
      get_eq (hadmins'.trans hmadmins), hsecret]
  refine ⟨hash, hhash, fun Ds Ds' => ⟨_, _, hrestarts Ds, hrestarts _, fun q now => ⟨?_, ?_⟩⟩⟩
  · intro hcheck
    have hlogin := login_credentials K L (s := ⟨secret, entries'⟩) now hu hlookup hhashne hcheck
    refine ⟨_, hlogin, (ping_eq_pong_iff K).mpr ⟨fun hnil => ?_, hsign _ _ _, ?_⟩⟩
    · have hverify := hsign secret u now
      rw [Server.createToken] at hnil
      rw [hnil, hempty] at hverify
      cases hverify
    · rw [Server.isAdmin, hlookup, Option.isSome_some, Bool.or_true]
  · exact login_credentials K L (s := ⟨secret, entries'⟩) now hu hlookup hhashne

/-! A signature that is readable, and a user -/

def unsigned : Text → Text → Option Text
  | [], '.' :: payload             => some payload
  | c :: key, 'k' :: c' :: token   => if c = c' then unsigned key token else none
  | _, _                           => none

def signed (key payload : Text) : Text := key.flatMap (fun c => ['k', c]) ++ '.' :: payload

/-- What was signed is read back with its key, -/
theorem unsigned_signed (key payload : Text) :
    unsigned key (signed key payload) = some payload := by
  induction key with
  | nil => rfl
  | cons c key ih =>
    change (if c = c then unsigned key (signed key payload) else none) = some payload
    rw [if_pos rfl, ih]

/-- and with no other key. -/
theorem eq_of_unsigned {key key' payload payload' : Text}
    (h : unsigned key' (signed key payload) = some payload') : key' = key ∧ payload' = payload := by
  induction key generalizing key' with
  | nil =>
    cases key' with
    | nil => exact ⟨rfl, (Option.some.inj h).symm⟩
    | cons c' key' => cases h
  | cons c key ih =>
    cases key' with
    | nil => cases h
    | cons c' key' =>
      change (if c' = c then unsigned key' (signed key payload) else none) = some payload' at h
      by_cases hc : c' = c
      · rw [if_pos hc] at h
        obtain ⟨rfl, rfl⟩ := ih h
        exact ⟨by rw [hc], rfl⟩
      · rw [if_neg hc] at h
        cases h

def sampleCrypto : Crypto Empty where
  checkpw p _          := .ok (p = "hunter2".toList)
  signToken key user _ :=
    match user with
    | .text u => signed key u
    | _       => []
  verifyToken key token := (unsigned key token).map .text

/-- The sample verifies what it signs. -/
theorem sampleCrypto_sign (key u : Text) (now : Nat) :
    sampleCrypto.verifyToken key (sampleCrypto.signToken key (.text u) now) = some (.text u) := by
  change (unsigned key (signed key u)).map Value.text = some (.text u)
  rw [unsigned_signed]
  rfl

/-- It does not verify an empty token, -/
theorem sampleCrypto_empty (key : Text) : sampleCrypto.verifyToken key [] = none := by
  cases key <;> rfl

/-- nor one of another key. -/
theorem sampleCrypto_verified (key key' : Text) (user user' : Value Empty) (now : Nat)
    (h : sampleCrypto.verifyToken key' (sampleCrypto.signToken key user now) = some user') :
    key' = key ∧ user' = user := by
  cases user with
  | text u =>
    obtain ⟨payload, hpayload, rfl⟩ := Option.map_eq_some_iff.mp h
    obtain ⟨rfl, rfl⟩ := eq_of_unsigned hpayload
    exact ⟨rfl, rfl⟩
  | _ =>
    have hnone : sampleCrypto.verifyToken key' [] = some user' := h
    rw [sampleCrypto_empty] at hnone
    cases hnone

def sampleServer : Server Empty := ⟨"key".toList, [("anna".toList, str "$2b$")]⟩

/-- A user who logs in, and then uses the token -/
def sampleRun : World Empty :=
  step sampleCrypto plainLibrary
    (.login 0 (some (credentials "anna".toList "hunter2".toList))) ⟨sampleServer, []⟩

/-- The token of the sample is answered. -/
theorem ping_pong_sample :
    ping sampleCrypto sampleRun.server (signed "key".toList "anna".toList) =
      .pong (str "anna") := by
  have hrun : Reach (step sampleCrypto plainLibrary) (Allowed sampleCrypto) ⟨sampleServer, []⟩
      sampleRun := .step _ .start trivial
  have hunforged : Unforged sampleCrypto sampleRun (signed "key".toList "anna".toList) :=
    fun _ _ => ⟨_, List.mem_cons_self, rfl⟩
  rw [ping_pong_iff sampleCrypto plainLibrary sampleCrypto_sign sampleCrypto_verified
    sampleCrypto_empty hrun hunforged]
  exact ⟨rfl, _, List.mem_cons_self, rfl, rfl, rfl,
    .inr ⟨_, "hunter2".toList, "$2b$".toList, rfl, rfl, rfl, by decide, rfl, by decide, rfl⟩⟩

/-- A configuration with one user, and the key that the update forgets -/
def sampleConfig : Config Empty := fun key =>
  if key = "admins" then some (dict [("anna", str "hunter2")])
  else if key = forgottenKey then some (.int 5)
  else none

/-- The sample's config can be updated. -/
theorem exists_update_sampleConfig :
    ∃ m, doUpdate plainLibrary plainDraws sampleConfig = some m := by
  have hadmins : newAdmins plainLibrary plainDraws sampleConfig =
      updatePasswords plainLibrary plainDraws [("anna".toList, str "hunter2")] := rfl
  have hhashable : ∀ e ∈ [("anna".toList, str "hunter2")], Hashable plainLibrary plainDraws e :=
    List.forall_mem_singleton.mpr fun _ => ⟨_, rfl, .inr rfl⟩
  obtain ⟨entries, hentries⟩ := exists_updatePasswords hhashable
  exact exists_doUpdate rfl (hadmins.trans hentries)

/-- And its user logs in, also after a restart. -/
theorem password_logs_in_sample :
    ∃ m, doUpdate plainLibrary plainDraws sampleConfig = some m ∧
      ∃ s s', (restarts plainLibrary m []).bind serverOf = some s ∧
        (restarts plainLibrary m [plainDraws]).bind serverOf = some s' ∧
        ∃ token, login sampleCrypto plainLibrary s 0
            (some (credentials "anna".toList "hunter2".toList)) = .loggedIn token ∧
          ping sampleCrypto s' token = .pong (str "anna") := by
  obtain ⟨m, hm⟩ := exists_update_sampleConfig
  have hsecret : newUnsharedSecret plainDraws sampleConfig = .text (List.replicate 64 'a') := rfl
  have hadmins : taken plainLibrary sampleConfig "admins" =
      some (.dict [("anna".toList, str "hunter2")]) := rfl
  have hentry : [("anna".toList, str "hunter2")].lookup "anna".toList =
      some (.text "hunter2".toList : Value Empty) := rfl
  obtain ⟨hash, -, hruns⟩ := password_logs_in sampleCrypto plainLibrary sampleCrypto_sign
    sampleCrypto_empty hm hsecret hadmins (by decide) hentry (by decide)
    (by decide)
  obtain ⟨s, s', hs, hs', hlogin⟩ := hruns [] [plainDraws]
  exact ⟨m, hm, s, s', hs, hs', (hlogin "hunter2".toList 0).1 rfl⟩

end Passwords

end Maubot.Login
