import Mathlib.Tactic.Common

namespace Maubot.Management

/-!
# Management API — responses

The responses of `responses.py` that the modelled handlers give: a status, and for the
failures the `errcode` and `error` fields of the JSON body.  The body of a success is
the record's `to_dict()`, which no modelled property reads.
-/

/-- A response of the management API. -/
structure Response where
  status  : Nat
  errcode : String := ""
  error   : String := ""
  deriving DecidableEq, Repr

namespace Response

/-- The response reports a failure to the caller. -/
def isError (r : Response) : Bool := decide (400 ≤ r.status)

/-! ### Client errors -/

def badClientAccessToken : Response := ⟨400, "bad_client_access_token", "Invalid access token"⟩

def badClientAccessDetails : Response :=
  ⟨400, "bad_client_access_details", "Invalid homeserver or access token"⟩

def badClientConnectionDetails : Response :=
  ⟨400, "bad_client_connection_details", "Could not connect to homeserver"⟩

def mxidMismatch (found : String) : Response :=
  ⟨400, "mxid_mismatch", "The Matrix user ID of the client and the user ID of the access token " ++
    "don't match. Access token is for user " ++ found⟩

/-- The source answers a device mismatch under the errcode of the user mismatch. -/
def deviceIdMismatch (found : String) : Response :=
  ⟨400, "mxid_mismatch", "The Matrix device ID of the client and the device ID of the access " ++
    "token don't match. Access token is for device " ++ found⟩

def pluginTypeRequired : Response :=
  ⟨400, "plugin_type_required", "Plugin type is required when creating plugin instances"⟩

def primaryUserRequired : Response :=
  ⟨400, "primary_user_required", "Primary user is required when creating plugin instances"⟩

def noToken : Response := ⟨401, "auth_token_missing", "Authorization token missing"⟩

def invalidToken : Response := ⟨401, "auth_token_invalid", "Invalid authorization token"⟩

def primaryUserNotFound : Response :=
  ⟨404, "primary_user_not_found", "Client for given primary user not found"⟩

def pluginTypeNotFound : Response :=
  ⟨404, "plugin_type_not_found", "Given plugin type not found"⟩

def clientNotFound : Response := ⟨404, "client_not_found", "Client not found"⟩

def pluginNotFound : Response := ⟨404, "plugin_not_found", "Plugin not found"⟩

def pluginInUse : Response :=
  ⟨412, "plugin_in_use", "Plugin instances of this type still exist"⟩

def clientInUse : Response :=
  ⟨412, "client_in_use", "Plugin instances with this client as their primary user still exist"⟩

def pluginImportError (error : String) : Response := ⟨400, "plugin_invalid", error⟩

/-! ### Server errors -/

def pluginReloadError (error : String) : Response := ⟨500, "plugin_reload_fail", error⟩

/-! ### Successes -/

def created : Response := { status := 201 }

def deleted : Response := { status := 204 }

def updated (isLogin : Bool) : Response := { status := if isLogin then 202 else 200 }

/-- A creation is no error, -/
@[simp] theorem isError_created : created.isError = false := rfl

/-- and neither is an update. -/
@[simp] theorem isError_updated (isLogin : Bool) : (updated isLogin).isError = false := by
  cases isLogin <;> rfl

end Response

end Maubot.Management
