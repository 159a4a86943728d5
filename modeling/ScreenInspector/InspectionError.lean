/-
  ScreenInspector/InspectionError.lean
  ====================================
  **What can go wrong while a device is inspected**, and how it is worded.

  Each constructor is a cause; `message` is the only place where causes become words.  A miss and
  an invalid expression are the operator's doing, everything else that of the device, the snapshot
  or the configuration.
-/
import ScreenInspector.Device.ConfigurationFault
import ScreenInspector.Expression.Fault
import ScreenInspector.Screen.Geometry
import ScreenInspector.Screen.Malformation

namespace ScreenInspector

inductive InspectionError where
  | malformed (cause : Malformation)
  | noElementAt (point : Point)
  /-- An expression that should select one element selects none. -/
  | unmatched (expression : String)
  /-- An expression that should select one element selects others. -/
  | ambiguous (expression : String) (matchCount : Nat)
  | invalidExpression (expression : String) (fault : Expression.Fault)
  /-- A fetch, a tap or a question did not get through. -/
  | channel (text : String)
  | configuration (fault : ConfigurationFault)
  | io (text : String)
deriving Inhabited

namespace InspectionError

def message : InspectionError → String
  | .malformed cause => cause.message
  | .noElementAt point => "No element found at " ++ point.text
  | .unmatched expression => "Locator " ++ expression ++ " does not match any element"
  | .ambiguous expression matchCount =>
    "Locator " ++ expression ++ " should have a single result. It has " ++ toString matchCount
  | .invalidExpression expression fault =>
    "Invalid expression " ++ expression ++ ": " ++ fault.message
  | .channel text => "Remote channel failure: " ++ text
  | .configuration fault => "Invalid configuration: " ++ fault.text
  | .io text => "I/O error: " ++ text

/-- Whether the operator pointed beside everything or typed an expression that means nothing. -/
def isOperatorError : InspectionError → Bool
  | .noElementAt _ => true
  | .invalidExpression _ _ => true
  | _ => false

end InspectionError

end ScreenInspector
