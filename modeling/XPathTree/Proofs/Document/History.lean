import XPathTree.Document.Edit

/-!
# Histories of a document

A document comes about by commands: nodes are created detached, and branches are
edited. A command may be refused, and the run goes on with whatever document the
refusal left behind. `Document.run` is the state after a list of commands; every
statement about the documents a caller can hold is a statement about
`Document.empty.run commands`.
-/

namespace XPathTree

/-- What a caller can do to a document. -/
inductive Command where
  /-- Create a detached element with its attributes. -/
  | createElement (name : QName) (attributes : List (QName × String))
  /-- Create a detached text. -/
  | createText (content : String)
  /-- Create a detached comment. -/
  | createComment (content : String)
  /-- Create a detached processing instruction. -/
  | createInstruction (target : String) (data : DataBlock)
  /-- Edit the content of a handle, which need not be a branch. -/
  | edit (branch : NodeId) (change : Edit)

/-- The handle whose content a command edits. -/
def Command.branch? : Command → Option NodeId
  | .edit branch _ => some branch
  | .createElement .. | .createText .. | .createComment .. | .createInstruction .. => none

namespace Document

/-- Answers with the handle of a created node. -/
def created (result : NodeId × Document) : Document × Except TreeError Outcome :=
  (result.2, .ok (.node result.1))

/-- The document after a command, and what came of it. -/
def perform (doc : Document) : Command → Document × Except TreeError Outcome
  | .createElement name attributes => created (doc.createElement name attributes)
  | .createText content => created (doc.create (.text content))
  | .createComment content => created (doc.create (.comment content))
  | .createInstruction target data => created (doc.create (.instruction target data))
  | .edit branch change => doc.edit branch change

/-- The document after some commands. -/
def run (doc : Document) : List Command → Document
  | [] => doc
  | command :: rest => (doc.perform command).1.run rest

/-- Some caller can hold this document. -/
def Reachable (doc : Document) : Prop := ∃ commands, empty.run commands = doc

end Document

end XPathTree
