import KNames.Settings.Render
import KNames.Storage.FileSystem

set_option autoImplicit false

namespace KNames.Settings

open Storage

inductive AccessError where
  | system (cause : SystemError)
  | notUtf8
deriving DecidableEq, Repr

def AccessError.text : AccessError → String
  | system cause => cause.text
  | notUtf8 => "stream did not contain valid UTF-8"

inductive FileError where
  | access (path : String) (cause : AccessError)
  | read (cause : ReadError)
deriving DecidableEq, Repr

def invalidText : String := "invalid ksem.toml"

/-- The wording; that of a malformed text is left to the reader of the format. -/
def FileError.message : FileError → String
  | access path cause => "failed to access " ++ path ++ ": " ++ cause.text
  | read .malformed => invalidText
  | read (.refused cause) => invalidText ++ ": " ++ cause.message

variable {State : Type}

def readText (system : FileSystem State) (state : State) (path : String) :
    Except AccessError String := do
  let content ← (system.read state path).mapError .system
  match String.fromUTF8? content with
  | some text => .ok text
  | none => .error .notUtf8

def load (system : FileSystem State) (state : State) (path : String) :
    Except FileError Settings :=
  match readText system state path with
  | .error cause => .error (.access path cause)
  | .ok text => (parse text).mapError .read

def save (s : Settings) (system : FileSystem State) (state : State) (path : String) :
    Except FileError State :=
  (system.write state path s.render.toUTF8).mapError fun cause => .access path (.system cause)

end KNames.Settings
