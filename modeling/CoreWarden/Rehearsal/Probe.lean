import CoreWarden.Probe.Course
import CoreWarden.World

/-! Rehearsals of a health wait alone: the core reacts as the world is scripted. -/
namespace CoreWarden.World

def reaction (b : Behavior) : Probe.Reaction :=
  if b.collapses then .collapses b.pause
  else if b.hangs then .silent
  else match b.error with
    | some e => .answers b.pause (.error e)
    | none => .answers b.pause (.ok ⟨"v1", true⟩)

def react (w : World) (now : Nat) : Probe.Reaction × World :=
  let (behavior, w) := w.place now .version
  (reaction behavior, w)

def probe? (w : World) (pace : Probe.Pace) : Option Probe.Course := Probe.course? pace react w

end CoreWarden.World
