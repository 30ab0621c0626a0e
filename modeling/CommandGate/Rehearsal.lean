import CommandGate.Lifecycle

/-!
# Collaborators in Memory

A rehearsal runs the lifecycle with collaborators that answer as they are told. The
directories are a set of paths, to which creation adds unless it is told to fail; the
tutorial state and the published version are given answers. Every call is written down, the
calls about directories in order and the others by their number. Telemetry and printing go
to a world as usual.
-/

namespace CommandGate

/-- A state of the collaborators and what they were called for. -/
structure Rehearsal where
  world : World
  existing : List String
  refusal : Option String
  tutorial : Except Fault Tutorial
  published : Except Fault String
  directoryCalls : List String := []
  tutorialCalls : Nat := 0
  publishedCalls : Nat := 0

namespace Rehearsal

/-- The answer that a collaborator was told to give. -/
def told {σ α : Type} : Except Fault α → Act σ α
  | .ok a => return a
  | .error e => throw e

/-- Adds a path to the directories, or fails as told. The call is written down first. -/
def createDirectory (p : Path) : Act Rehearsal Unit := do
  modify fun r => { r with directoryCalls := r.directoryCalls ++ ["create " ++ p.toString] }
  match (← get).refusal with
  | some message => throw (.directory (.reported message))
  | none => modify fun r => { r with existing := r.existing ++ [p.toString] }

/-- Whether a path is among the directories. -/
def directoryExists (p : Path) : Act Rehearsal Bool := do
  modify fun r => { r with directoryCalls := r.directoryCalls ++ ["exists " ++ p.toString] }
  return (← get).existing.contains p.toString

/-- The tutorial state that was told. -/
def findTutorial : Act Rehearsal Tutorial := do
  modify fun r => { r with tutorialCalls := r.tutorialCalls + 1 }
  told (← get).tutorial

/-- The published version that was told. -/
def publishedVersion : Act Rehearsal String := do
  modify fun r => { r with publishedCalls := r.publishedCalls + 1 }
  told (← get).published

/-- A step of the world, taken in a rehearsal. -/
def inWorld {α : Type} (a : Act World α) : Act Rehearsal α :=
  a.within (·.world) fun w r => { r with world := w }

/-- The collaborators in memory. -/
def collaborators (s : Surroundings) : Lifecycle.Collaborators Rehearsal where
  createDirectory := createDirectory
  directoryExists := directoryExists
  findTutorial := findTutorial
  publishedVersion := publishedVersion
  record e := inWorld (Telemetry.record s e)
  print t := inWorld (World.print .stdout t)
  interpreter := s.environment.interpreter

end Rehearsal

end CommandGate
