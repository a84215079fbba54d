import Mathlib.Data.List.Basic
import XPathTree.Proofs.Document.History
import XPathTree.Value.Operator

/-!
# Comparisons with node-sets

A comparison with a node-set holds if it holds of the string-value of some node, and with
node-sets on both sides if it holds of some node of each. So all that has to be known is how
strings, numbers and booleans compare. This is one law (`GoesByNodes`), and the three ways of
comparing follow it: by equality, by difference and by a relation between numbers. Difference
is no exception. It is the negation of equality only where no node-set is involved, and a
node-set can both equal a value and differ from it.
-/

namespace XPathTree

/-- A comparison of values over a document holds of a node-set if it holds of the string-value of
some node. Against a boolean, a node-set counts as one value: true when it has nodes. -/
structure Document.GoesByNodes (doc : Document) (compare : Value → Value → Bool) : Prop where
  nodes_nodes (a b : NodeSet) : compare (.nodes a) (.nodes b) = true ↔
    ∃ x ∈ a.nodes, ∃ y ∈ b.nodes,
      compare (.string (doc.stringValue x)) (.string (doc.stringValue y)) = true
  nodes_string (a : NodeSet) (text : String) : compare (.nodes a) (.string text) = true ↔
    ∃ x ∈ a.nodes, compare (.string (doc.stringValue x)) (.string text) = true
  nodes_number (a : NodeSet) (number : Double) : compare (.nodes a) (.number number) = true ↔
    ∃ x ∈ a.nodes, compare (.string (doc.stringValue x)) (.number number) = true
  string_nodes (text : String) (b : NodeSet) : compare (.string text) (.nodes b) = true ↔
    ∃ y ∈ b.nodes, compare (.string text) (.string (doc.stringValue y)) = true
  number_nodes (number : Double) (b : NodeSet) : compare (.number number) (.nodes b) = true ↔
    ∃ y ∈ b.nodes, compare (.number number) (.string (doc.stringValue y)) = true
  nodes_boolean (a : NodeSet) (answer : Bool) :
    compare (.nodes a) (.boolean answer) = compare (.boolean !a.isEmpty) (.boolean answer)
  boolean_nodes (answer : Bool) (b : NodeSet) :
    compare (.boolean answer) (.nodes b) = compare (.boolean answer) (.boolean !b.isEmpty)

theorem Double.equals_comm (a b : Double) : a.equals b = b.equals a := by
  unfold equals
  cases a.position? <;> cases b.position?
  case some.some place place' => exact BEq.comm
  all_goals rfl

namespace NodeSet

variable {doc : Document} {set : NodeSet}

theorem any_texts {p : String → Bool} :
    (set.texts doc).any p = true ↔ ∃ x ∈ set.nodes, p (doc.stringValue x) = true := by
  rw [texts, List.any_map, List.any_eq_true]
  rfl

theorem any_numbers {p : Double → Bool} :
    (set.numbers doc).any p = true ↔
      ∃ x ∈ set.nodes, p (.parse (doc.stringValue x)) = true := by
  rw [numbers, List.any_map]
  exact any_texts

theorem contains_texts {text : String} :
    (set.texts doc).contains text = true ↔
      ∃ x ∈ set.nodes, (text == doc.stringValue x) = true := by
  rw [List.contains_eq_any_beq, any_texts]

end NodeSet

/-! ## The three comparisons -/

namespace Document

open NodeSet

variable (doc : Document)

theorem goesByNodes_equal : doc.GoesByNodes (Value.equal doc) where
  nodes_nodes a b := by
    simp only [Value.equal, any_texts, contains_texts]
  nodes_string a text := by
    simp only [Value.equal, contains_texts, BEq.comm]
  nodes_number a number := any_numbers
  string_nodes text b := contains_texts
  number_nodes number b := by
    simp only [Value.equal, any_numbers, Value.toNumber, Double.equals_comm]
  nodes_boolean a answer := by
    simp only [Value.equal, Value.toBool]
    cases a.isEmpty <;> cases answer <;> rfl
  boolean_nodes answer b := by
    simp only [Value.equal, Value.toBool]
    cases b.isEmpty <;> cases answer <;> rfl

theorem goesByNodes_unequal : doc.GoesByNodes (Value.unequal doc) where
  nodes_nodes a b := by
    simp only [Value.unequal, Value.equal, any_texts, bne, BEq.comm]
  nodes_string a text := any_texts
  nodes_number a number := any_numbers
  string_nodes text b := by
    simp only [Value.unequal, Value.equal, any_texts, bne, BEq.comm]
  number_nodes number b := by
    simp only [Value.unequal, Value.equal, any_numbers, Value.toNumber, Double.equals_comm]
  nodes_boolean a answer := congrArg not ((goesByNodes_equal doc).nodes_boolean a answer)
  boolean_nodes answer b := congrArg not ((goesByNodes_equal doc).boolean_nodes answer b)

theorem goesByNodes_related (relation : Double → Double → Bool) :
    doc.GoesByNodes (Value.related relation doc) where
  nodes_nodes a b := by
    simp only [Value.related, any_numbers, Value.toNumber]
  nodes_string a text := any_numbers
  nodes_number a number := any_numbers
  string_nodes text b := any_numbers
  number_nodes number b := any_numbers
  nodes_boolean a answer := rfl
  boolean_nodes answer b := rfl

end Document

/-! ## Operators -/

namespace BinaryOp

/-- The operators that compare their operands. -/
def isComparison : BinaryOp → Bool
  | .equal | .unequal | .less | .lessOrEqual | .greater | .greaterOrEqual => true
  | _ => false

/-- The operator gives true for two values. -/
def Holds (op : BinaryOp) (doc : Document) (left right : Value) : Prop :=
  op.apply doc left right = .ok (.boolean true)

instance (op : BinaryOp) (doc : Document) (left right : Value) :
    Decidable (op.Holds doc left right) :=
  inferInstanceAs (Decidable (op.apply doc left right = .ok (.boolean true)))

variable {op : BinaryOp}

theorem exists_compare (h : op.isComparison = true) (doc : Document) :
    ∃ compare, (∀ left right, op.apply doc left right = .ok (.boolean (compare left right))) ∧
      doc.GoesByNodes compare := by
  cases op with
  | equal => exact ⟨Value.equal doc, fun _ _ => rfl, doc.goesByNodes_equal⟩
  | unequal => exact ⟨Value.unequal doc, fun _ _ => rfl, doc.goesByNodes_unequal⟩
  | less | lessOrEqual | greater | greaterOrEqual =>
      exact ⟨Value.related _ doc, fun _ _ => rfl, doc.goesByNodes_related _⟩
  | _ => cases h

/-- A comparison always gives a boolean. It holds of two node-sets exactly if it holds of the
string-values of some node of each; of a node-set and a string or number, on either side, exactly
if it holds of the string-value of some node; and with a boolean on the other side, a node-set
compares as the boolean whether it has nodes. -/
theorem comparison_lifts (h : op.isComparison = true) (doc : Document) (a b : NodeSet) :
    (∀ left right, ∃ answer, op.apply doc left right = .ok (.boolean answer)) ∧
    (op.Holds doc (.nodes a) (.nodes b) ↔ ∃ x ∈ a.nodes, ∃ y ∈ b.nodes,
      op.Holds doc (.string (doc.stringValue x)) (.string (doc.stringValue y))) ∧
    (∀ value : Value, value.type = .string ∨ value.type = .number →
      (op.Holds doc (.nodes a) value ↔
        ∃ x ∈ a.nodes, op.Holds doc (.string (doc.stringValue x)) value) ∧
      (op.Holds doc value (.nodes a) ↔
        ∃ x ∈ a.nodes, op.Holds doc value (.string (doc.stringValue x)))) ∧
    ∀ answer, op.apply doc (.nodes a) (.boolean answer) =
        op.apply doc (.boolean !a.isEmpty) (.boolean answer) ∧
      op.apply doc (.boolean answer) (.nodes a) =
        op.apply doc (.boolean answer) (.boolean !a.isEmpty) := by
  obtain ⟨compare, happly, goes⟩ := exists_compare h doc
  have hholds (left right : Value) : op.Holds doc left right ↔ compare left right = true := by
    rw [Holds, happly, Except.ok.injEq, Value.boolean.injEq]
  simp only [hholds, happly, Except.ok.injEq, Value.boolean.injEq]
  refine ⟨fun left right => ⟨_, rfl⟩, goes.nodes_nodes a b, fun value hvalue => ?_, fun answer =>
    ⟨goes.nodes_boolean a answer, goes.boolean_nodes answer a⟩⟩
  cases value with
  | string text => exact ⟨goes.nodes_string a text, goes.string_nodes text a⟩
  | number number => exact ⟨goes.nodes_number a number, goes.number_nodes number a⟩
  | nodes | boolean => rcases hvalue with hvalue | hvalue <;> cases hvalue

/-- Two texts differ from one of them, and equal it. -/
theorem comparison_lifts_both :
    let commands : List Command := [.createElement (.plain "e") [],
      .edit ⟨1⟩ (.addText "1"), .edit ⟨1⟩ (.addText "2")]
    let doc := Document.empty.run commands
    let texts : NodeSet := ⟨[⟨2⟩, ⟨3⟩]⟩
    isComparison .equal = true ∧ isComparison .unequal = true ∧
      Holds .equal doc (.nodes texts) (.number (.ofNat 1)) ∧
      Holds .unequal doc (.nodes texts) (.number (.ofNat 1)) ∧
      Holds .equal doc (.nodes texts) (.nodes (.singleton ⟨2⟩)) ∧
      Holds .unequal doc (.nodes texts) (.nodes (.singleton ⟨2⟩)) := by
  intro commands doc texts
  have hequal : isComparison .equal = true := rfl
  have hunequal : isComparison .unequal = true := rfl
  obtain ⟨_, hnodes, hscalar, _⟩ := comparison_lifts hequal doc texts (.singleton ⟨2⟩)
  obtain ⟨_, hnodes', hscalar', _⟩ := comparison_lifts hunequal doc texts (.singleton ⟨2⟩)
  refine ⟨hequal, hunequal, (hscalar _ (.inr rfl)).1.mpr ⟨⟨2⟩, ?_⟩,
    (hscalar' _ (.inr rfl)).1.mpr ⟨⟨3⟩, ?_⟩, hnodes.mpr ⟨⟨2⟩, ?_⟩, hnodes'.mpr ⟨⟨3⟩, ?_⟩⟩
  all_goals decide +kernel

end BinaryOp

end XPathTree
