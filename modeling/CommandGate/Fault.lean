import CommandGate.FileTree.Basic
import CommandGate.Json.Display
import CommandGate.Json.Reader

/-!
# Faults

Every way in which a step of the program can fail is a constructor here, and its wording is
`Fault.message`. Faults of the home directory, of the tutorial state and of the version
lookup are kinds of their own, because the program recovers from them in different places;
all other faults end the invocation.
-/

namespace CommandGate

/-- A directory that the program needs cannot be made. -/
inductive DirectoryFault where
  | notCreated (path : Path) (errno : Errno)
  | reported (message : String)

/-- Why the tutorial file cannot be read. -/
inductive UnreadableCause where
  | refused (errno : Errno)
  | malformed (complaint : Json.Complaint) (position : Json.Position)

/-- The tutorial state cannot be found out. -/
inductive TutorialFault where
  | unreadable (path : Path) (cause : UnreadableCause)
  | notObject (path : Path)
  | reported (message : String)

/-- The published version cannot be found out. -/
inductive ReleaseFault where
  | requestFailed (message : String)
  | badStatus (status : Int)
  | emptyAnswer
  | reported (message : String)

/-- The arguments of a telemetry event make no valid record. -/
inductive RecordFault where
  | event
  | payload
  | unknownLevel (level : Json)
  | listLevel
  | mappingLevel
  | status (status : Json)

/-- Why a step of the program fails. -/
inductive Fault where
  | directory (fault : DirectoryFault)
  | tutorial (fault : TutorialFault)
  | release (fault : ReleaseFault)
  | record (fault : RecordFault)
  | unknownState
  | file (fault : FileFault)
  | decoding (fault : Utf8.DecodeFault)
  | encoding (fault : Utf8.EncodeFault)
  | longInteger (digits : Nat)
  | homeUnknown
  | foreign (kind message : String)

/-- The wording of a directory fault. -/
def DirectoryFault.message : DirectoryFault → Text
  | notCreated path errno => s!"failed to create directory {path.toString}: {errno.message}"
  | reported message => message

/-- The wording of a cause, for the file at a path. -/
def UnreadableCause.message (path : Path) : UnreadableCause → Text
  | refused errno => (FileFault.refused errno path).message
  | malformed complaint position => (Json.Error.malformed complaint position).message

/-- The wording of a tutorial fault. -/
def TutorialFault.message : TutorialFault → Text
  | unreadable path cause =>
    s!"unable to read tutorial state from {path.toString}: " ++ cause.message path
  | notObject path => s!"tutorial state in {path.toString} must be an object"
  | reported message => message

/-- The wording of a release fault. -/
def ReleaseFault.message : ReleaseFault → Text
  | requestFailed message => "stable version request failed: " ++ message
  | badStatus status => s!"stable version request failed: {status}"
  | emptyAnswer => "stable version response was empty"
  | reported message => message

/-- The wording of a record fault. -/
def RecordFault.message : RecordFault → Text
  | event => "Telemetry event must have non-empty string 'event'"
  | payload => "Telemetry payload must be a dict"
  | unknownLevel level => "Telemetry level '" ++ level.display ++ "' is not supported"
  | listLevel => "unhashable type: 'list'"
  | mappingLevel => "unhashable type: 'dict'"
  | status value => value.quoted ++ " is not of type 'string'"

/-- The wording of a fault. -/
def Fault.message : Fault → Text
  | directory fault => fault.message
  | tutorial fault => fault.message
  | release fault => fault.message
  | record fault => fault.message
  | unknownState => "tutorial state must be one of on, off"
  | file fault => fault.message
  | decoding fault => fault.message
  | encoding fault => fault.message
  | longInteger digits => (Json.Error.longInteger digits).message
  | homeUnknown => "Could not determine home directory."
  | foreign _ message => message

end CommandGate
