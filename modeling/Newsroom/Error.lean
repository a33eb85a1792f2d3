import Newsroom.Toml.Fault

/-!
# Errors

Everything that can go wrong, by cause, and how it is reported.

## Main Definitions

* `SystemFault` — faults of files, threads and displays
* `PipelineFault` — faults of a pipeline that is built or run
* `ConfigFault` — faults of a configuration as a whole
* `DescriptorFault` — faults of one line of a descriptor
* `Error` — any of these, possibly in a context
* `ErrorKind` — the kinds of fault that become errors when they are put in a context
* `Cause`, `Cause.source?` — what an error can be traced back to, step by step
* `Error.causes` — the chain of causes behind an error
* `Outcome.context`, `Outcome.withContext` — a failure that is put in a context

## Design Notes

A constructor names a cause and keeps what its report mentions; the wording is
in the `message` functions alone.  Each kind also has a constructor for a fault
that is described in words by whoever reports it.
-/

namespace Newsroom

/-- A fault outside the newsroom. -/
inductive SystemFault where
  | notFound
  | permissionDenied
  | notDirectory
  | isDirectory
  | nameTooLong
  /-- A path that holds a zero character. -/
  | zeroInPath
  | invalidUtf8
  | tryAgain
  | other (message : String)
  deriving DecidableEq, Repr

/-- How a fault outside the newsroom is reported. -/
def SystemFault.message : SystemFault → String
  | notFound => "No such file or directory (os error 2)"
  | permissionDenied => "Permission denied (os error 13)"
  | notDirectory => "Not a directory (os error 20)"
  | isDirectory => "Is a directory (os error 21)"
  | nameTooLong => "File name too long (os error 36)"
  | zeroInPath => "file name contained an unexpected NUL byte"
  | invalidUtf8 => "stream did not contain valid UTF-8"
  | tryAgain => "Resource temporarily unavailable (os error 11)"
  | other message => message

/-- The fault that an operating system reports by a number. -/
def SystemFault.ofNumber? : Nat → Option SystemFault
  | 2 => some .notFound
  | 11 => some .tryAgain
  | 13 => some .permissionDenied
  | 20 => some .notDirectory
  | 21 => some .isDirectory
  | 36 => some .nameTooLong
  | _ => none

/-- A fault of a pipeline. -/
inductive PipelineFault where
  /-- A buffer without room. -/
  | zeroCapacity (buffer : String)
  /-- A stage whose thread was not created. -/
  | spawn (stage : String) (cause : SystemFault)
  /-- A stage that did not end by itself. -/
  | stagePanicked (stage : String)
  deriving DecidableEq, Repr

/-- How a fault of a pipeline is reported. -/
def PipelineFault.message : PipelineFault → String
  | zeroCapacity buffer => s!"Buffer '{buffer}' needs a capacity of at least 1"
  | spawn stage cause => s!"Failed to spawn stage '{stage}': {cause.message}"
  | stagePanicked stage => s!"Stage '{stage}' panicked"

/-- A fault of a configuration that no single line is to blame for. -/
inductive ConfigFault where
  /-- A descriptor without a co-editor line. -/
  | missingCoEditor
  | zeroCoEditor
  | zeroQueue (id : UInt32)
  | document (fault : Toml.ReadFault)
  /-- A configuration that has no document. -/
  | unwritable (fault : Toml.WriteFault)
  | other (message : String)
  deriving DecidableEq, Repr

/-- How a fault of a configuration is reported. -/
def ConfigFault.message : ConfigFault → String
  | missingCoEditor => "missing 'Co-Editor queue size = <n>' line"
  | zeroCoEditor => "Co-Editor queue size must be at least 1"
  | zeroQueue id => s!"producer {id} queue size must be at least 1"
  | document fault => fault.message
  | unwritable fault => s!"Failed to serialize config: {fault.message}"
  | other message => message

/-- A fault of a line of a descriptor. -/
inductive DescriptorFault where
  | producerLine
  | producerId (raw : String)
  | missingCount (id : UInt32)
  | count (raw : String)
  | missingSize (id : UInt32)
  | sizeLine
  | size (raw : String)
  | coEditorLine
  | coEditorSize (raw : String)
  | other (message : String)
  deriving DecidableEq, Repr

/-- How a fault of a line is reported. -/
def DescriptorFault.message : DescriptorFault → String
  | producerLine => "expected 'PRODUCER <id>'"
  | producerId raw => s!"invalid producer id: '{raw}'"
  | missingCount id => s!"missing message count for producer {id}"
  | count raw => s!"invalid message count: '{raw}'"
  | missingSize id => s!"missing queue size for producer {id}"
  | sizeLine => "expected 'queue size = <n>'"
  | size raw => s!"invalid queue size: '{raw}'"
  | coEditorLine => "expected 'Co-Editor queue size = <n>'"
  | coEditorSize raw => s!"invalid Co-Editor queue size: '{raw}'"
  | other message => message

/-- Anything that can go wrong. -/
inductive Error where
  | config (fault : ConfigFault)
  | parse (line : Nat) (fault : DescriptorFault)
  | system (fault : SystemFault)
  | pipeline (fault : PipelineFault)
  | inContext (context : String) (source : Error)
  deriving DecidableEq, Repr

/-- The faults of a type are errors of one kind. -/
class ErrorKind (ε : Type) where
  /-- A fault of the kind as an error. -/
  toError : ε → Error

@[default_instance]
instance : ErrorKind Error := ⟨id⟩

instance : ErrorKind SystemFault := ⟨.system⟩

instance : ErrorKind PipelineFault := ⟨.pipeline⟩

/-- What an error can be traced back to. -/
inductive Cause where
  | error (e : Error)
  | pipeline (e : PipelineFault)
  | system (e : SystemFault)
  deriving DecidableEq, Repr

namespace Error

/-- How an error is reported: its contexts, the last one first, and its base. -/
def message : Error → String
  | config fault => s!"Configuration error: {fault.message}"
  | parse line fault => s!"Parse error at line {line}: {fault.message}"
  | system fault => s!"IO error: {fault.message}"
  | pipeline fault => s!"Pipeline error: {fault.message}"
  | inContext context source => s!"{context}: {source.message}"

/-- An error in a context. -/
def within (e : Error) (context : String) : Error := inContext context e

/-- The error without its contexts. -/
def base : Error → Error
  | inContext _ source => source.base
  | e => e

/-- The causes of a fault of a pipeline. -/
def pipelineCauses : PipelineFault → List Cause
  | .spawn _ cause => [.system cause]
  | .zeroCapacity _ => []
  | .stagePanicked _ => []

/-- The causes behind an error, the nearest first. -/
def causes : Error → List Cause
  | config _ => []
  | parse _ _ => []
  | system fault => [.system fault]
  | pipeline fault => .pipeline fault :: pipelineCauses fault
  | inContext _ source => .error source :: source.causes

end Error

namespace Cause

/-- How a cause is reported. -/
def message : Cause → String
  | error e => e.message
  | pipeline e => e.message
  | system e => e.message

/-- What a cause goes back to itself. -/
def source? : Cause → Option Cause
  | error (.inContext _ source) => some (.error source)
  | error (.system fault) => some (.system fault)
  | error (.pipeline fault) => some (.pipeline fault)
  | error (.config _) => none
  | error (.parse _ _) => none
  | pipeline (.spawn _ cause) => some (.system cause)
  | pipeline (.zeroCapacity _) => none
  | pipeline (.stagePanicked _) => none
  | system _ => none

end Cause

/-- A result of something that may fail. -/
abbrev Outcome := Except Error

namespace Outcome

variable {ε α : Type} [ErrorKind ε]

/-- A failure is put in a context. -/
def context (r : Except ε α) (context : String) : Outcome α :=
  r.mapError fun e => (ErrorKind.toError e).within context

/-- A failure is put in a context that is made only for it. -/
def withContext (r : Except ε α) (context : Unit → String) : Outcome α :=
  match r with
  | .ok a => .ok a
  | .error e => .error ((ErrorKind.toError e).within (context ()))

end Outcome

end Newsroom
