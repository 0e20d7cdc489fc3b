import KNames.Tree.Draft
import KNames.Tree.Layout

set_option autoImplicit false

/-!
# Construction scripts

A script is the sequence of calls that builds a tree. A call either adds a node at once or wraps
a script of its own, which may itself open or close nodes. What a call does is a list of actions
that depends on nothing but the cursor. `ids` lists the numbers that the calls answer, in the order
in which they return: a call that wraps others returns after them.
-/
namespace KNames

inductive Step where
  | require (path : String)
  | sortDecl (sort : String)
  | production (labels : List String)
  | varDecl (name : String) (sort : Option String)
  | anonymousVar (sort : String)
  | reference (text : String)
  | openNode (kind : Kind) (start : Nat)
  | leaf (kind : Kind) (span : Span)
  | close (stop : Nat)
deriving DecidableEq, Repr

inductive Block where
  | moduleBlock (name : String)
  | rule
  | term (text : String)
deriving DecidableEq, Repr

inductive Script where
  | done
  | step (call : Step) (next : Script)
  | block (head : Block) (body next : Script)
deriving DecidableEq, Repr

namespace Step

open Layout

def laid (kind : Kind) (start next : Nat) : List Action :=
  [.moveTo next, .leaf kind ⟨start, next⟩]

/-- A leaf whose span leaves out the blank after its text. -/
def tight (kind : Kind) (start length : Nat) : List Action :=
  [.moveTo (past start length), .leaf kind ⟨start, start + length⟩]

def actions (start : Nat) : Step → List Action
  | require path => tight (.require path) start (path.utf8ByteSize + 10)
  | sortDecl sort =>
    laid (.sortDecl (identAt sort (start + 7))) start (pastName (start + 7) sort)
  | production labels => laid (.production (idents start labels)) start (pastNames start labels)
  | varDecl name sort =>
    let next := pastName start name
    laid (.varDecl (some (identAt name start)) (sort.map (identAt · next))) start
      (pastNames next sort.toList)
  | anonymousVar sort =>
    -- One byte is kept for the separator.
    let length := sort.utf8ByteSize + 1
    laid (.varDecl none (some ⟨sort, ⟨start, start + length⟩⟩)) start (past start length)
  | reference text => tight (.term text) start text.utf8ByteSize
  | openNode kind start => [.openNode kind start]
  | leaf kind span => [.leaf kind span]
  | close stop => [.close stop]

def added : Step → Nat
  | close _ => 0
  | _ => 1

end Step

namespace Block

open Layout

def entering (start : Nat) : Block → List Action
  | moduleBlock name =>
    [.moveTo (pastName (start + 7) name), .openNode (.moduleBlock (identAt name (start + 7))) start]
  | rule => [.openNode .rule start, .moveTo (past start 5), .openNode .ruleBody (past start 5)]
  | term text => [.openNode (.term text) start, .moveTo (pastName start text)]

/-- A module ends after nine more bytes, anything else where its body has left the cursor. -/
def leaving (stop : Nat) : Block → List Action
  | moduleBlock _ => [.moveTo (past stop 9), .close (stop + 9)]
  | rule => [.close stop, .close stop]
  | term _ => [.close stop]

def added : Block → Nat
  | rule => 2
  | _ => 1

end Block

namespace Builder

variable {State : Type} (b : Builder State)

def call (s : State) (call : Step) : State := b.perform s (call.actions (b.cursor s))

def enter (s : State) (head : Block) : State := b.perform s (head.entering (b.cursor s))

def leave (s : State) (head : Block) : State := b.perform s (head.leaving (b.cursor s))

def run : Script → State → State
  | .done, s => s
  | .step call next, s => run next (b.call s call)
  | .block head body next, s => run next (b.leave (run body (b.enter s head)) head)

end Builder

namespace Script

def size : Script → Nat
  | done => 0
  | step call next => call.added + next.size
  | block head body next => head.added + body.size + next.size

/-- The answers of a run whose first new node has the number `base`. -/
def ids (base : NodeId) : Script → List NodeId
  | done => []
  | step call next => List.replicate call.added base ++ next.ids (base + call.added)
  | block head body next =>
    body.ids (base + head.added) ++ base :: next.ids (base + head.added + body.size)

def build (s : Script) : Tree := (Draft.builder.run s .empty).finish

def issued (s : Script) : List NodeId := s.ids 1

end Script

end KNames
