import KNames.Span

set_option autoImplicit false

namespace KNames

structure Ident where
  name : String
  span : Span
deriving DecidableEq, Repr, Inhabited

inductive Kind where
  | file
  | require (path : String)
  | moduleBlock (name : Ident)
  | sortDecl (sort : Ident)
  /-- Every label of a production is a declared name. -/
  | production (labels : List Ident)
  | rule
  | ruleBody
  /-- A typed variable; a malformed one may lack its name. -/
  | varDecl (name sort : Option Ident)
  | term (text : String)
deriving DecidableEq, Repr, Inhabited

namespace Kind

def name : Kind → String
  | file => "file"
  | require _ => "require"
  | moduleBlock _ => "module"
  | sortDecl _ => "syntax"
  | production _ => "production"
  | rule => "rule"
  | ruleBody => "rule body"
  | varDecl _ _ => "variable declaration"
  | term _ => "term"

def isRule : Kind → Bool
  | rule => true
  | _ => false

def isRuleBody : Kind → Bool
  | ruleBody => true
  | _ => false

/-- A search for the rule around a node goes no further up than this. -/
def isBoundary : Kind → Bool
  | rule | moduleBlock _ | file => true
  | _ => false

def requirePath? : Kind → Option String
  | require path => some path
  | _ => none

end Kind

end KNames
