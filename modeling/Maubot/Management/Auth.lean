import Maubot.Management.Responses
import Maubot.Lib.UrlPath

namespace Maubot.Management

/-!
# Management API — requests and access tokens

The part of a request that `auth.py` and `middleware.py` read, and the token check.
Signing is mautrix's: `verifyToken` is a parameter of the configuration, the payload it
returns is reduced to the `user_id` field that `isValidToken` looks at.
-/

/-- A string that the code takes apart. -/
abbrev Text := List Char

/-- What the auth code reads of the configuration, with mautrix's `verify_token`. -/
structure AuthConfig where
  /-- `server.unshared_secret` -/
  unsharedSecret : Text
  /-- the keys of `admins` -/
  admins         : List Text
  /-- `api_features`: the modules of the API, and whether each is enabled -/
  apiFeatures    : List (String × Bool)
  /-- whether `.dev-open-cfg.yaml` could be read -/
  devOpenCfg     : Bool
  /-- `none` for a bad signature (or an empty payload), else the payload's `user_id` -/
  verifyToken    : Text → Text → Option (Option Text)

structure Request where
  method            : String
  /-- the path of the request line, nothing decoded yet -/
  rawPath           : Text
  /-- the `Authorization` header -/
  authorization     : Option Text := none
  /-- the `access_token` query parameter -/
  queryAccessToken  : Option Text := none

/-- `request.path`: the fully percent-decoded path. -/
def Request.path (req : Request) : Text := UrlPath.unquote (fun _ => false) req.rawPath

def AuthConfig.isAdmin (cfg : AuthConfig) (user : Option Text) : Bool :=
  match user with
  | some u => u = "root".toList || cfg.admins.contains u
  | none   => false

def bearer : Text := "Bearer ".toList

def getToken (req : Request) : Text :=
  let token := req.authorization.getD []
  if token = [] ∨ bearer.isPrefixOf token = false then req.queryAccessToken.getD []
  else token.drop bearer.length

def isValidToken (cfg : AuthConfig) (token : Text) : Bool :=
  match cfg.verifyToken cfg.unsharedSecret token with
  | none      => false
  | some user => cfg.isAdmin user

def checkToken (cfg : AuthConfig) (req : Request) : Option Response :=
  let token := getToken req
  if token = [] then some .noToken
  else if isValidToken cfg token = false then some .invalidToken
  else none

/-- The request carries a token that the management API accepts. -/
def HasValidToken (cfg : AuthConfig) (req : Request) : Prop :=
  getToken req ≠ [] ∧ isValidToken cfg (getToken req) = true

/-- A request passes exactly with a valid token. -/
theorem checkToken_eq_none_iff (cfg : AuthConfig) (req : Request) :
    checkToken cfg req = none ↔ HasValidToken cfg req := by
  unfold checkToken HasValidToken
  by_cases h : getToken req = []
  · simp [h]
  · cases hv : isValidToken cfg (getToken req) <;> simp [h, hv]

/-- The check fails with an error response, whatever it objects to. -/
theorem isError_of_checkToken {cfg : AuthConfig} {req : Request} {err : Response}
    (h : checkToken cfg req = some err) : err.isError = true := by
  unfold checkToken at h
  by_cases ht : getToken req = []
  · simp only [ht, if_true, Option.some.injEq] at h
    subst h; rfl
  · simp only [if_neg ht] at h
    split at h
    · simp only [Option.some.injEq] at h
      subst h; rfl
    · exact absurd h (by simp)

end Maubot.Management
