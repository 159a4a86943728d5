/-
  ScreenInspector/Device/ConfigurationFault.lean
  ==============================================
  **Why a configuration cannot be used.**
-/
import ScreenInspector.Yaml.Fault
import ScreenInspector.Text.Quoted

namespace ScreenInspector

inductive ConfigurationFault where
  | notYaml (fault : Yaml.Fault)
  | noWebViewKind
  | settleDelayTooLong (milliseconds : Nat)
  | badBaseUrl (url : String)
  | noSession
  | noTimeout
  /-- A fault of the configuration in a file. -/
  | inFile (path : String) (fault : ConfigurationFault)
  /-- As an evaluator from outside words it. -/
  | reported (text : String)
deriving DecidableEq, Repr

namespace ConfigurationFault

/-- The longest pause after a tap, in milliseconds. -/
def settleDelayLimit : Nat := 60000

def text : ConfigurationFault → String
  | .notYaml fault => "invalid YAML: " ++ fault.message
  | .noWebViewKind => "web_view_kind is empty"
  | .settleDelayTooLong milliseconds =>
    "settle_delay_ms " ++ toString milliseconds ++ " exceeds " ++ toString settleDelayLimit
  | .badBaseUrl url => "device.base_url must be an http(s) URL, got " ++ Text.quoted url
  | .noSession => "device.session_id is empty"
  | .noTimeout => "device.timeout_ms must be positive"
  | .inFile path fault => path ++ ": " ++ fault.text
  | .reported text => text

end ConfigurationFault

end ScreenInspector
