import XPathTree.Proofs.Evaluation.Parts

/-!
# Names in expressions

An expression gives names a meaning in two places: a reference stands for what its variable is
bound to, and a prefix, written in the name of a called function or in the test of a step, stands
for a namespace. `Expr.variableNames` and `Expr.prefixes` are the names of both kinds that an
expression and everything inside it use.
-/

namespace XPathTree

/-- The test of a step. -/
def Step.test : Step → NodeTest
  | .mk _ test _ => test

/-- The prefix that a test writes. -/
def NodeTest.prefixes : NodeTest → List String
  | .anyIn nsPrefix => [nsPrefix]
  | .name (some nsPrefix) _ => [nsPrefix]
  | _ => []

namespace Expr

/-- The variable that an expression is a reference to. -/
def ownVariableNames : Expr → List String
  | .reference name => [name]
  | _ => []

/-- The prefixes that an expression writes without those inside its parts: that of the function
it calls, or those of its steps. -/
def ownPrefixes : Expr → List String
  | .call name _ =>
      ((Text.splitAtFirst ':' name.toList).map fun parts => String.ofList parts.1).toList
  | .path _ steps => steps.flatMap fun step => step.test.prefixes
  | _ => []

/-- An expression and everything inside it. -/
def inside (expr : Expr) : List Expr :=
  expr :: (expr.parts.attach.map fun part => inside part.1).flatten
termination_by sizeOf expr
decreasing_by exact sizeOf_lt_of_mem_parts part.2

/-- The variables that an expression refers to. -/
def variableNames (expr : Expr) : List String := expr.inside.flatMap ownVariableNames

/-- The prefixes that an expression writes. -/
def prefixes (expr : Expr) : List String := expr.inside.flatMap ownPrefixes

variable {expr part : Expr}

theorem inside_eq (expr : Expr) : expr.inside = expr :: expr.parts.flatMap inside := by
  rw [inside, List.attach_map_val (f := inside), List.flatMap_def]

/-- What is used by an expression itself is used by it or inside it. -/
theorem own_subset {own : Expr → List String} : own expr ⊆ expr.inside.flatMap own := by
  rw [inside_eq, List.flatMap_cons]
  exact List.subset_append_left _ _

/-- What is used by or inside a part is used inside the expression. -/
theorem flatMap_inside_subset {own : Expr → List String} (h : part ∈ expr.parts) :
    part.inside.flatMap own ⊆ expr.inside.flatMap own := by
  intro name hname
  obtain ⟨other, hother, hname⟩ := List.mem_flatMap.mp hname
  rw [inside_eq]
  exact List.mem_flatMap_of_mem
    (List.mem_cons_of_mem _ (List.mem_flatMap_of_mem h hother)) hname

end Expr

end XPathTree
