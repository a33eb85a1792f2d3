import Newsroom.Config.Basic

/-!
# Stage threads

Every stage runs on a thread of its own that carries its name.

## Main Definitions

* `Stage.UnusableName` — a name that no thread can carry
* `Stage.spawn` — the handle of a stage, unless its thread cannot be created
* `Stage.join` — the report of a stage, unless it panicked
-/

namespace Newsroom.Stage

variable {ρ : Type}

/-- A name that no thread can carry, because a zero byte stands in it. -/
structure UnusableName where
  /-- Where the first zero byte stands. -/
  position : Nat
  bytes : List UInt8
  deriving DecidableEq, Repr

/-- How an unusable name is reported. -/
def UnusableName.message (u : UnusableName) : String :=
  let bytes := ", ".intercalate (u.bytes.map toString)
  s!"thread name may not contain interior null bytes: NulError({u.position}, [{bytes}])"

/-- What keeps a thread from carrying a name.  A zero byte ends the name of a
thread, so that none can stand inside. -/
def unusable? (name : String) : Option UnusableName :=
  let bytes := name.toUTF8.data.toList
  (bytes.findIdx? (· = 0)).map fun i => ⟨i, bytes⟩

/-- The name of a stage whose thread was created. -/
def spawn (name : String) (fault? : Option SystemFault) : Except PipelineFault String :=
  match fault? with
  | some fault => .error (.spawn name fault)
  | none => .ok name

/-- What joining a stage gives; a stage that panicked has no report. -/
def join (name : String) : Option ρ → Logged (Except PipelineFault ρ)
  | some report => ⟨.ok report, []⟩
  | none => ⟨.error (.stagePanicked name), [.stagePanicked name]⟩

end Newsroom.Stage
