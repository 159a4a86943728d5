/-
  ScreenInspector/Device/Configuration.lean
  =========================================
  **Configurations**: how an inspection behaves, and where its device is.

  The part on the device is checked on its own, because only live inspections need it.  A
  configuration whose device part is valid has the addresses of the device's endpoints.
-/
import ScreenInspector.Device.ConfigurationFault
import ScreenInspector.Json.Value
import ScreenInspector.Screen.Tree

namespace ScreenInspector

/-- Where a device is reached. -/
structure DeviceSettings where
  baseUrl : String := "http:" ++ "//localhost:4444"
  sessionId : String := ""
  /-- How long a call may take, in milliseconds. -/
  timeout : Nat := 30000
deriving DecidableEq, Repr, Inhabited

structure Configuration where
  /-- Whether clicks are recorded. -/
  record : Bool := false
  /-- The pause after a tap, in milliseconds. -/
  settleDelay : Nat := 800
  /-- The kind of web views. -/
  webViewKind : String := Tree.webViewKind
  device : DeviceSettings := {}
deriving DecidableEq, Repr, Inhabited

/-! ### Validity -/

/-- The schemes that an address of a device may have. -/
def urlSchemes : List String :=
  ["http:" ++ "//", "https:" ++ "//"]

/-- Whether an address begins with one of the schemes. -/
def isWebUrl (url : String) : Bool :=
  urlSchemes.any fun scheme => scheme.toList.isPrefixOf url.toList

def DeviceSettings.validate (s : DeviceSettings) : Except ConfigurationFault Unit :=
  if !isWebUrl s.baseUrl then .error (.badBaseUrl s.baseUrl)
  else if Text.isBlankText s.sessionId then .error .noSession
  else if s.timeout = 0 then .error .noTimeout
  else .ok ()

/-- Checks all but the part on the device. -/
def Configuration.validate (c : Configuration) : Except ConfigurationFault Unit :=
  if Text.isBlankText c.webViewKind then .error .noWebViewKind
  else if ConfigurationFault.settleDelayLimit < c.settleDelay then
    .error (.settleDelayTooLong c.settleDelay)
  else .ok ()

/-! ### Endpoints -/

/-- The addresses to which calls of a device go. -/
structure Endpoints where
  tree : String
  screenshot : String
  tap : String
deriving DecidableEq, Repr, Inhabited

/-- An address without the slashes at its end. -/
def withoutFinalSlashes (url : String) : String :=
  String.ofList (url.toList.reverse.dropWhile (· == '/')).reverse

/-- The endpoints of a session below a base address. -/
def Endpoints.below (base session : String) : Endpoints :=
  { tree := base ++ "/inspector/session/" ++ session ++ "/tree"
    screenshot := base ++ "/inspector/session/" ++ session ++ "/screenshot"
    tap := base ++ "/wd/hub/session/" ++ session ++ "/tap/2" }

/-- The endpoints of valid settings. -/
def DeviceSettings.endpoints (s : DeviceSettings) : Except ConfigurationFault Endpoints := do
  s.validate
  pure (Endpoints.below (withoutFinalSlashes s.baseUrl) s.sessionId)

/-! ### Written form -/

def DeviceSettings.toJson (s : DeviceSettings) : Json :=
  .object
    [("base_url", .string s.baseUrl), ("session_id", .string s.sessionId),
     ("timeout_ms", .whole s.timeout)]

def Configuration.toJson (c : Configuration) : Json :=
  .object
    [("record", .bool c.record), ("settle_delay_ms", .whole c.settleDelay),
     ("web_view_kind", .string c.webViewKind), ("device", c.device.toJson)]

end ScreenInspector
