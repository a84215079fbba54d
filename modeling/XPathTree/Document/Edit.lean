import XPathTree.Document.Content

/-!
# Edits

Every change of a branch as a value, and what comes of it. `Document.edit` makes
one change: it answers with the document afterwards and with an outcome or the
reason for refusing. The node that an edit is about to add is created before it is
looked at, so that a refusal leaves it in the document, detached.
-/

namespace XPathTree

/-- A change of the content of a branch. -/
inductive Edit where
  /-- Add a node, looking at its type before all else. -/
  | add (node : NodeId)
  /-- Put a node behind the content. -/
  | push (node : NodeId)
  /-- Put a node at a place in the content. -/
  | insert (index : Nat) (node : NodeId)
  /-- Take out a node. -/
  | remove (node : NodeId)
  /-- Take out the node at a place. -/
  | removeAt (index : Nat)
  /-- Take out all nodes. -/
  | clear
  /-- Ask about each node, given those asked about before it, whether it may stay. -/
  | retain (keep : List NodeId → NodeId → Bool)
  /-- Replace the content. -/
  | setContent (content : List NodeId)
  /-- Replace the processing instructions. -/
  | setInstructions (given : List NodeId)
  /-- Take out the first processing instruction for a target. -/
  | removeInstruction (target : String)
  /-- Create an element with its attributes and add it. -/
  | addElement (name : QName) (attributes : List (QName × String))
  /-- Create a text and add it. -/
  | addText (content : String)
  /-- Create a comment and add it. -/
  | addComment (content : String)
  /-- Create a processing instruction and add it. -/
  | addInstruction (target : String) (data : DataBlock)

/-- What an edit that was made has to tell. -/
inductive Outcome where
  | done
  /-- Whether there was anything to take out. -/
  | removed (found : Bool)
  /-- The node that was created or taken out. -/
  | node (id : NodeId)
  /-- The nodes that were asked about, in order. -/
  | asked (ids : List NodeId)
  deriving DecidableEq

namespace Document

/-- Asks `keep` about each child of a branch in turn and detaches those that may
not stay; the nodes asked about come second. -/
def retainAsking (doc : Document) (branch : NodeId) (keep : List NodeId → NodeId → Bool) :
    Document × List NodeId :=
  Id.run <| StateT.run (doc.retain branch fun node => do
    let asked ← get
    set (asked ++ [node])
    pure (keep asked node)) []

/-- Changes the content of a handle that is known to be a branch. -/
def editContent (branch : NodeId) : Edit → Update Outcome
  | .add node => do
    addChild branch node
    return .done
  | .push node => do
    pushChild branch node
    return .done
  | .insert index node => do
    insertChild branch index node
    return .done
  | .remove node => return .removed (← removeChild branch node)
  | .removeAt index => return .node (← removeChildAt branch index)
  | .clear => do
    Update.write (·.clear branch)
    return .done
  | .retain keep => do
    let asked ← modifyGet fun doc => (doc.retainAsking branch keep).swap
    return .asked asked
  | .setContent content => do
    setContent branch content
    return .done
  | .setInstructions given => do
    setInstructions branch given
    return .done
  | .removeInstruction target => return .removed (← removeInstruction branch target)
  | .addElement name attributes => do
    let node ← modifyGet (·.createElement name attributes)
    return .node (← appendNew branch node)
  | .addText content => do
    let node ← modifyGet (·.create (.text content))
    return .node (← appendNew branch node)
  | .addComment content => do
    let node ← modifyGet (·.create (.comment content))
    Update.write (·.linkLast branch node)
    return .node node
  | .addInstruction target data => do
    let node ← modifyGet (·.create (.instruction target data))
    Update.write (·.linkLast branch node)
    return .node node

/-- Makes an edit of a branch; refused if the handle is no branch. -/
def edit (doc : Document) (branch : NodeId) (change : Edit) :
    Document × Except TreeError Outcome :=
  doc.apply do
    Update.check (·.checkBranch .editBranch branch)
    editContent branch change

end Document

end XPathTree
