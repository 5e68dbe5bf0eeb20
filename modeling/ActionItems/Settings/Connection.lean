import ActionItems.CheckRun
import ActionItems.Settings.Basic

/-!
# Connections from settings

The settings of the service give a client, a session with a token that stays the same, and the app
that makes the check runs. There is no client without a token or with an address that is no text.
-/

namespace ActionItems.Settings

open ActionItems.GitHub (Client Session)

/-- Why settings give no client. -/
inductive ConnectError where
  | token
  /-- The address is no text. -/
  | base
deriving Repr, DecidableEq

/-- The client that settings give, and its first session. -/
def connect (s : ServiceSettings) : Except ConnectError (Client × Session) :=
  if !s.token.isTruthy then .error .token
  else
    match s.base with
    | .text base => .ok (.ofBase base s.timeout, { tokens := .fixed s.token.display })
    | _ => .error .base

/-- The app that settings describe. -/
def app (s : ServiceSettings) : CheckRun.App := ⟨s.app, s.name⟩

end ActionItems.Settings
