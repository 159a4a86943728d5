/-
  ScreenInspector/Device/Connection.lean
  ======================================
  **Devices**: what delivers snapshots and takes taps.

  A device may answer differently every time, so it is a pair of functions on a state of its own.
  A connection is a device's state together with all calls that went to the device.
-/
import ScreenInspector.Device.Screenshot
import ScreenInspector.InspectionError
import ScreenInspector.Json.Value

namespace ScreenInspector

/-- What a device delivers at once: a payload that describes its screen, and a picture of it. -/
structure Snapshot where
  payload : Json
  screenshot : Screenshot
deriving Inhabited

/-- A device with states of type `σ`. -/
structure Device (σ : Type) where
  fetch : σ → Except InspectionError Snapshot × σ
  tap : Point → σ → Except InspectionError Unit × σ

/-- A call that went to a device. -/
inductive DeviceCall where
  | fetch
  | tap (point : Point)
deriving Inhabited

/-- How a call is written in a list of calls. -/
def DeviceCall.text : DeviceCall → String
  | .fetch => "fetch_snapshot"
  | .tap p => "tap:" ++ Number.plainText p.x ++ "," ++ Number.plainText p.y

def DeviceCall.isTap : DeviceCall → Bool
  | .fetch => false
  | .tap _ => true

/-- A device's state, and the calls that went to the device, the last first. -/
structure Connection (σ : Type) where
  state : σ
  calls : List DeviceCall

namespace Connection

variable {σ : Type}

/-- A connection over which nothing was called yet. -/
def opened (state : σ) : Connection σ :=
  ⟨state, []⟩

def fetch (d : Device σ) (c : Connection σ) : Except InspectionError Snapshot × Connection σ :=
  let (answer, state) := d.fetch c.state
  (answer, ⟨state, .fetch :: c.calls⟩)

def tap (d : Device σ) (p : Point) (c : Connection σ) :
    Except InspectionError Unit × Connection σ :=
  let (answer, state) := d.tap p c.state
  (answer, ⟨state, .tap p :: c.calls⟩)

/-- The calls in the order in which they were made. -/
def history (c : Connection σ) : List DeviceCall :=
  c.calls.reverse

end Connection

/-- A device that takes every tap, does nothing, and has no snapshots. -/
def Device.idle : Device Unit where
  fetch _ := (.error (.channel "no snapshots"), ())
  tap _ _ := (.ok (), ())

end ScreenInspector
