import Newsroom.Config.Descriptor
import Newsroom.Config.Document

/-!
# Loading a configuration

How the contents of a file become a configuration that a newsroom can be built
from.

## Main Definitions

* `Path.fault?` — what keeps a path from naming a file, whatever files there are
* `Path.extension?` — what follows the last point of a file name
* `Format` — the two forms of a configuration, chosen by the extension
* `Config.load` — read, parse and validate

## Design Notes

What the file system answers is an argument, so that loading is a function.  A
fault of the file or of its text is put in a context that names the path; a fault
that validation finds is not.
-/

namespace Newsroom

namespace Path

/-- The least length of a path, in bytes, that is too long. -/
def limit : Nat := 4096

/-- What keeps a path from naming a file, whatever files there are. -/
def fault? (path : String) : Option SystemFault :=
  if path.isEmpty then some .notFound
  else if path.toList.contains '\x00' then some .zeroInPath
  else if limit ≤ path.utf8ByteSize then some .nameTooLong
  else none

/-- The last component of a path, if it names a file.  A path that ends in `..`
does not; other components that are empty or a single point are passed over. -/
def fileName? (path : List Char) : Option (List Char) :=
  match ((path.splitOnP (· == '/')).filter fun s => !s.isEmpty && s != ['.']).getLast? with
  | some s => if s = ['.', '.'] then none else some s
  | none => none

/-- What follows the last point of a file name, unless the point begins it. -/
def extension? (path : List Char) : Option (List Char) :=
  match (fileName? path).bind (Text.cutAtLast? '.') with
  | some (stem, ext) => if stem.isEmpty then none else some ext
  | none => none

end Path

/-- The forms of a configuration. -/
inductive Format where
  | document
  | descriptor
  deriving DecidableEq, Repr

/-- The extension of documents. -/
def Format.documentExtension : List Char := "toml".toList

/-- The form of the configuration in a file.  The case of the extension does not
matter. -/
def Format.ofPath (path : String) : Format :=
  match Path.extension? path.toList with
  | some ext => if ext.map Char.toLower = documentExtension then .document else .descriptor
  | none => .descriptor

/-- A text as characters, if its bytes are well-formed. -/
def decodeText (bytes : ByteArray) : Except SystemFault String :=
  match String.fromUTF8? bytes with
  | some s => .ok s
  | none => .error .invalidUtf8

namespace Config

variable [DocumentLibrary]

/-- The configuration of a text in a given form. -/
def parse : Format → String → Logged (Outcome Config)
  | .document, text => ⟨readDocument text, []⟩
  | .descriptor, text => Descriptor.read text

/-- The validated configuration of a file, from its path and what reading it
gave. -/
def load (path : String) (contents : Except SystemFault ByteArray) : Logged (Outcome Config) :=
  match contents.bind decodeText with
  | .error fault =>
      ⟨.error (.inContext s!"Failed to read config file {Text.quoted path}" (.system fault)), []⟩
  | .ok text =>
      let parsed := parse (Format.ofPath path) text
      match parsed.value with
      | .error e =>
          ⟨.error (.inContext s!"Failed to parse config file {Text.quoted path}" e), parsed.events⟩
      | .ok c =>
          let checked := c.validate
          match checked.value with
          | .error e => ⟨.error e, parsed.events ++ checked.events⟩
          | .ok () =>
              ⟨.ok c, parsed.events ++ checked.events ++
                [.loaded c.producers.length path c.coEditorQueueSize]⟩

end Config

end Newsroom
