import KNames.Lookup

set_option autoImplicit false

namespace KNames

inductive Complaint where
  | duplicateVariable (name : String) (previous : Span)
  | unresolvedReference (reference : Reference)
deriving DecidableEq, Repr

structure Diagnostic where
  complaint : Complaint
  span : Span
deriving DecidableEq, Repr

namespace Diagnostic

def unresolved (reference : Reference) (span : Span) : Diagnostic :=
  ⟨.unresolvedReference reference, span⟩

def text (d : Diagnostic) : String :=
  "[" ++ d.span.text ++ "] " ++
    match d.complaint with
    | .duplicateVariable name previous =>
      "variable `" ++ name ++ "` is declared again, first declared at [" ++ previous.text ++ "]"
    | .unresolvedReference reference => "cannot resolve " ++ reference.text

def repeats (name : String) : List Declaration → List Diagnostic
  | [] => []
  | first :: later => later.map fun again => ⟨.duplicateVariable name first.span, again.span⟩

/-- The variables declared in a subtree, each once, in the order of their first declarations. -/
def variableNames (source : Source) (node : NodeId) : List String :=
  ((Declaration.inSubtree source node .var).flatMap (·.names)).eraseDups

def duplicateVariables (source : Source) (rule : NodeId) : List Diagnostic :=
  match source.tree.ruleBody? rule with
  | none => []
  | some body =>
    let found := (variableNames source body).flatMap fun name =>
      repeats name (Lookup.variablesNamed source body name)
    found.mergeSort fun a b => a.span.start ≤ b.span.start

end Diagnostic

end KNames
