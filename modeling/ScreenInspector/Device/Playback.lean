/-
  ScreenInspector/Device/Playback.lean
  ====================================
  **A device that plays snapshots back**: every fetch delivers the next snapshot of a queue, and
  the last one again when the queue is empty.  Fetches and taps can be made to fail.
-/
import ScreenInspector.Device.Connection

namespace ScreenInspector

structure Playback where
  queue : List Snapshot := []
  /-- The snapshot delivered last. -/
  latest : Option Snapshot := none
  failsFetch : Bool := false
  failsTap : Bool := false
  /-- The points of the taps that did not fail, in order. -/
  taps : List Point := []
deriving Inhabited

namespace Playback

/-- Puts a snapshot at the end of the queue. -/
def push (p : Playback) (s : Snapshot) : Playback :=
  { p with queue := p.queue ++ [s] }

def fetch (p : Playback) : Except InspectionError Snapshot × Playback :=
  if p.failsFetch then (.error (.channel "mock fetch failure"), p)
  else
    match p.queue, p.latest with
    | s :: rest, _ => (.ok s, { p with queue := rest, latest := some s })
    | [], some s => (.ok s, p)
    | [], none => (.error (.channel "no mock snapshot set"), p)

def tap (point : Point) (p : Playback) : Except InspectionError Unit × Playback :=
  if p.failsTap then (.error (.channel "mock tap failure"), p)
  else (.ok (), { p with taps := p.taps ++ [point] })

/-- The device that plays back. -/
def device : Device Playback where
  fetch := Playback.fetch
  tap := Playback.tap

end Playback

end ScreenInspector
