import XPathTree.Node

/-!
# Refused edits

The causes for which an edit of a document is refused, and their wording.
-/

namespace XPathTree

/-- What was asked of a node that is of the wrong type for it. -/
inductive Operation where
  /-- Reading the content of a branch. -/
  | readBranch
  /-- Changing the content of a branch. -/
  | editBranch
  /-- Entering the content of a branch. -/
  | add
  /-- Entering the content of the document node. -/
  | addToDocument
  /-- Becoming one of the processing instructions of a branch. -/
  | setInstructions
  deriving DecidableEq

/-- The name of an operation. -/
def Operation.label : Operation → String
  | readBranch => "branch"
  | editBranch => "branch_mut"
  | add => "add"
  | addToDocument => "add to document"
  | setInstructions => "set_processing_instructions"

/-- Why an edit was refused. -/
inductive TreeError where
  /-- A place in the content of a branch that holds `size` nodes does not exist. -/
  | indexOutOfRange (index size : Nat)
  | invalidNodeType (operation : Operation) (found : NodeType)
  | unknownNode (node : NodeId)
  | alreadyParented (node : NodeId)
  | duplicateRootElement
  | wouldCreateCycle (node : NodeId)
  /-- The type was needed of a node whose slot is empty. -/
  | emptySlot (node : NodeId)
  deriving DecidableEq

/-- The wording of a refusal. -/
def TreeError.message : TreeError → String
  | indexOutOfRange index size =>
    "Index " ++ toString index ++ " is out of range for a branch with " ++
      toString size ++ " nodes"
  | invalidNodeType operation found =>
    "Operation '" ++ operation.label ++ "' does not accept a " ++ found.label ++ " node"
  | unknownNode node => "Node " ++ node.label ++ " does not belong to this document"
  | alreadyParented node => "Node " ++ node.label ++ " already has a parent"
  | duplicateRootElement => "Document already has a root element"
  | wouldCreateCycle node =>
    "Adding node " ++ node.label ++ " would make it its own ancestor"
  | emptySlot node => "Slot " ++ node.label ++ " is empty"

end XPathTree
