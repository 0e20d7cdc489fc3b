import KNames.Tree.Action
import KNames.Tree.Basic

set_option autoImplicit false

namespace KNames

structure Frame where
  kind : Kind
  start : Nat
  done : Forest
deriving DecidableEq, Repr

/-- A tree while it grows: the nodes still open, innermost first, and what is finished right under
the root, which has no frame and so is never closed. -/
structure Draft where
  cursor : Nat
  frames : List Frame
  done : Forest
deriving DecidableEq, Repr

namespace Draft

def empty : Draft := ⟨0, [], .nil⟩

def add (kind : Kind) (span : Span) (children : Forest) (d : Draft) : Draft :=
  match d.frames with
  | [] => { d with done := d.done.append (.cons kind span children .nil) }
  | f :: fs =>
    { d with frames := { f with done := f.done.append (.cons kind span children .nil) } :: fs }

def openNode (kind : Kind) (start : Nat) (d : Draft) : Draft :=
  { d with frames := ⟨kind, start, .nil⟩ :: d.frames }

def leaf (kind : Kind) (span : Span) (d : Draft) : Draft :=
  { d with cursor := max d.cursor span.stop }.add kind span .nil

def close (stop : Nat) (d : Draft) : Draft :=
  match d.frames with
  | [] => d
  | f :: fs =>
    { d with cursor := max d.cursor stop, frames := fs }.add f.kind ⟨f.start, max stop f.start⟩
      f.done

def act (d : Draft) : Action → Draft
  | .moveTo position => { d with cursor := position }
  | .openNode kind start => d.openNode kind start
  | .leaf kind span => d.leaf kind span
  | .close stop => d.close stop

def builder : Builder Draft := ⟨cursor, act⟩

def finish (d : Draft) : Tree :=
  ⟨⟨0, d.cursor⟩, (d.frames.foldl (fun e _ => e.close d.cursor) d).done⟩

end Draft

end KNames
