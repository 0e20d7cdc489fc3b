set_option autoImplicit false

namespace KNames.Storage

inductive SystemError where
  | notFound
  | notDirectory
  | isDirectory
  | nameTooLong
  | zeroInName
  | permissionDenied
  | other (text : String)
deriving DecidableEq, Repr

namespace SystemError

def text : SystemError → String
  | notFound => "No such file or directory (os error 2)"
  | notDirectory => "Not a directory (os error 20)"
  | isDirectory => "Is a directory (os error 21)"
  | nameTooLong => "File name too long (os error 36)"
  | zeroInName => "file name contained an unexpected NUL byte"
  | permissionDenied => "Permission denied (os error 13)"
  | other text => text

end SystemError

/-- Files as a program reaches them: whole contents, under the text of a path. The states are those
of the system, with all that other programs keep there. -/
structure FileSystem (State : Type) where
  read : State → String → Except SystemError ByteArray
  write : State → String → ByteArray → Except SystemError State

/-- A read under this path gives what a write has just put there. A regular file that may be read is
kept so; a device that swallows what is written to it is not. -/
def FileSystem.Keeps {State : Type} (system : FileSystem State) (state : State) (path : String) :
    Prop :=
  ∀ content later, system.write state path content = .ok later →
    system.read later path = .ok content

end KNames.Storage
