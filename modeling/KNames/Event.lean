import KNames.Reference

set_option autoImplicit false

namespace KNames

inductive Miss where
  | noScope
  | noMatch
  | staleHandle
deriving DecidableEq, Repr

def Miss.name : Miss → String
  | noScope => "NoScope"
  | noMatch => "NoMatch"
  | staleHandle => "StaleHandle"

inductive Event where
  | noEnclosingRule (file : FileId) (node : NodeId)
  | fileScope (file : FileId)
  | moduleScope (file : FileId) (group : ModuleId) (files : Nat)
  | noModule (file : FileId)
  | staleSkipped (file : FileId)
  | resolved (reference : Reference) (scope : String) (file : FileId) (node : NodeId)
  | unresolved (reference : Reference) (file : FileId) (node : NodeId) (reason : Miss)
deriving DecidableEq, Repr

namespace Event

inductive Level where
  | debug
  | trace
deriving DecidableEq, Repr

def Level.name : Level → String
  | debug => "DEBUG"
  | trace => "TRACE"

/-- Outcomes are for the user, the steps towards them for a closer look. -/
def level : Event → Level
  | resolved .. | unresolved .. => .debug
  | _ => .trace

def message : Event → String
  | noEnclosingRule .. => "no enclosing rule"
  | fileScope _ => "file scope"
  | moduleScope .. => "module scope"
  | noModule _ => "file belongs to no module, falling back to file scope"
  | staleSkipped _ => "skipping stale file handle"
  | resolved .. => "resolved"
  | unresolved .. => "unresolved"

inductive Field where
  | text (value : String)
  | count (value : Nat)
deriving DecidableEq, Repr

def fields : Event → List (String × Field)
  | noEnclosingRule file node => [("file", .text file.text), ("node", .text node.text)]
  | fileScope file | noModule file | staleSkipped file => [("file", .text file.text)]
  | moduleScope file group files =>
    [("file", .text file.text), ("module", .text group.text), ("files", .count files)]
  | resolved reference scope file node =>
    [("reference", .text reference.text), ("scope", .text scope), ("file", .text file.text),
      ("node", .text node.text)]
  | unresolved reference file node reason =>
    [("reference", .text reference.text), ("file", .text file.text), ("node", .text node.text),
      ("reason", .text reason.name)]

end Event

structure Traced (α : Type) where
  value : α
  events : List Event
deriving DecidableEq, Repr

namespace Traced

variable {α β : Type}

def silent (value : α) : Traced α := ⟨value, []⟩

def reporting (event : Event) (value : α) : Traced α := ⟨value, [event]⟩

def andThen (first : Traced α) (next : α → Traced β) : Traced β :=
  ⟨(next first.value).value, first.events ++ (next first.value).events⟩

def after (event : Event) (later : Traced α) : Traced α := ⟨later.value, event :: later.events⟩

end Traced

end KNames
