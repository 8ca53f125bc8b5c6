import Spoils.Codec.Config
import Spoils.Codec.Content
import Spoils.Document.Format

/-! Loading content and configurations from texts and files. -/
namespace Spoils

inductive LoadError where
  | unreadable
  | malformed (format : Format)
  | unsupported (path : String)
  | refused (reason : ContentError)
deriving DecidableEq, Repr

/-- The text of an error, where it is fixed. -/
def LoadError.message? : LoadError → Option String
  | .unreadable | .malformed _ => none
  | .unsupported path => some s!"Unsupported content format: {path}"
  | .refused reason => some reason.message

def Format.load {α : Type} (f : Format) (decode : Doc → Option α) (text : String) :
    Except LoadError α :=
  match (f.read? text).bind decode with
  | some a => .ok a
  | none => .error (.malformed f)

/-- The format and the text of a file, if it can be read. -/
def Format.ofFile (path : String) (text : Option String) : Except LoadError (Format × String) :=
  match text, ofPath? path with
  | none, _ => .error .unreadable
  | some _, none => .error (.unsupported path)
  | some text, some f => .ok (f, text)

namespace Catalog

def ofText (f : Format) (text : String) : Except LoadError Catalog := do
  let content ← f.load Content.ofDoc? text
  (ofContent content).mapError .refused

def ofFile (path : String) (text : Option String) : Except LoadError Catalog := do
  let (f, text) ← Format.ofFile path text
  ofText f text

end Catalog

namespace Config

def ofText (f : Format) (text : String) : Except LoadError Config := f.load ofDoc? text

/-- Loads the configuration of a file, with defaults for what makes no sense. -/
def ofFile (path : String) (text : Option String) : Except LoadError Config := do
  let (f, text) ← Format.ofFile path text
  return (← ofText f text).sanitize

end Config

end Spoils
