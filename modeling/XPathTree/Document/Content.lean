import XPathTree.Document.Update
import XPathTree.Document.Walk

/-!
# The content of branches

Documents and elements are branches: they own an ordered list of children. Every
change of that list keeps the parents of the nodes involved in step with it. The
changes that may be refused are updates: they look at all that could be at fault
before they write.

Elements, comments and processing instructions may enter any branch, text only
an element, documents and attributes none. A node enters only while it has no
parent, never below itself, and the document node takes one element at most.
-/

namespace XPathTree.Document

/-- Refuses handles that are no branches of the document. -/
def checkBranch (doc : Document) (operation : Operation) (id : NodeId) :
    Except TreeError Unit :=
  match doc.nodeType? id with
  | none => .error (.unknownNode id)
  | some found =>
    if found.isBranch then .ok () else .error (.invalidNodeType operation found)

/-- Refuses places behind the end of the content of a branch. -/
def checkPlace (doc : Document) (branch : NodeId) (index : Nat) : Except TreeError Unit :=
  let size := (doc.children branch).length
  if size < index then .error (.indexOutOfRange index size) else .ok ()

/-- Refuses types of nodes that the content of a branch does not take. -/
def checkType (branchType : Option NodeType) (found : NodeType) : Except TreeError Unit :=
  match found with
  | .element | .comment | .instruction => .ok ()
  | .text =>
    if branchType = some .element then .ok ()
    else .error (.invalidNodeType .addToDocument .text)
  | .document | .attribute => .error (.invalidNodeType .add found)

/-- Refuses nodes that may not become children of a branch. -/
def checkInsertable (doc : Document) (branch node : NodeId) : Except TreeError Unit := do
  match doc.nodeType? node with
  | none => .error (.unknownNode node)
  | some found =>
    checkType (doc.nodeType? branch) found
    if (doc.parent? node).isSome then
      .error (.alreadyParented node)
    else if doc.isAncestorOrSelf node branch then
      .error (.wouldCreateCycle node)
    else if found = .element ∧ doc.nodeType? branch = some .document ∧
        (doc.elementChild? branch).isSome then
      .error .duplicateRootElement
    else .ok ()

/-! ## Links between a branch and its children -/

/-- Makes a node a child of a branch, at a place in its content. -/
def link (doc : Document) (branch : NodeId) (index : Nat) (node : NodeId) : Document :=
  (doc.setChildren branch ((doc.children branch).insertIdx index node)).setParent
    (some branch) node

/-- Takes a child, found at the given place, out of a branch. -/
def unlink (doc : Document) (branch : NodeId) (index : Nat) (node : NodeId) : Document :=
  (doc.setChildren branch ((doc.children branch).eraseIdx index)).setParent none node

/-- Puts a node behind the content of a branch. -/
def linkLast (doc : Document) (branch node : NodeId) : Document :=
  doc.link branch (doc.children branch).length node

/-! ## Single nodes -/

/-- Inserts a node at a place in the content of a branch. -/
def insertChild (branch : NodeId) (index : Nat) (node : NodeId) : Update Unit := do
  Update.check (·.checkPlace branch index)
  Update.check (·.checkInsertable branch node)
  Update.write (·.link branch index node)

/-- Puts a node behind the content of a branch, if it may enter. -/
def pushChild (branch node : NodeId) : Update Unit := do
  let size := ((← get).children branch).length
  insertChild branch size node

/-- Adds a node to a branch. The type of the node is looked at before all else. -/
def addChild (branch node : NodeId) : Update Unit := do
  let doc ← get
  match doc.nodeType? node with
  | none => throw (.unknownNode node)
  | some .element | some .comment | some .instruction => pushChild branch node
  | some .text =>
    if doc.nodeType? branch = some .document then
      throw (.invalidNodeType .addToDocument .text)
    else pushChild branch node
  | some found => throw (.invalidNodeType .add found)

/-- Puts a node that has just been created behind the content of a branch, if it may
enter, and answers with it. -/
def appendNew (branch node : NodeId) : Update NodeId := do
  Update.check (·.checkInsertable branch node)
  Update.write (·.linkLast branch node)
  return node

/-- The child at a place in the content of a branch. -/
def childAt (doc : Document) (branch : NodeId) (index : Nat) : Except TreeError NodeId :=
  match (doc.children branch)[index]? with
  | some node => .ok node
  | none => .error (.indexOutOfRange index (doc.children branch).length)

/-- The place of a node in the content of a branch. -/
def indexOf? (doc : Document) (branch node : NodeId) : Option Nat :=
  (doc.children branch).idxOf? node

/-- Takes the child at a place out of a branch and answers with it. -/
def removeChildAt (branch : NodeId) (index : Nat) : Update NodeId := do
  let node ← Update.check (·.childAt branch index)
  Update.write (·.unlink branch index node)
  return node

/-- Takes a node out of the content of a branch, and tells whether the content held it. -/
def takeOut (branch node : NodeId) : Update Bool := do
  match (← get).indexOf? branch node with
  | none => return false
  | some index =>
    Update.write (·.unlink branch index node)
    return true

/-- Takes a child out of a branch, and tells whether there was such a child. Documents
and attributes count as children of no branch. -/
def removeChild (branch node : NodeId) : Update Bool := do
  match (← get).nodeType? node with
  | none | some .document | some .attribute => return false
  | some _ => takeOut branch node

/-! ## Whole contents -/

/-- Detaches all children of a branch. -/
def clear (doc : Document) (branch : NodeId) : Document :=
  (doc.setParents none (doc.children branch)).setChildren branch []

/-- Asks of each child of a branch in order whether it may stay, and detaches the
others. -/
def retain {m : Type → Type} [Monad m] (doc : Document) (branch : NodeId)
    (keep : NodeId → m Bool) : m Document := do
  let answers ← (doc.children branch).mapM fun node => do
    let stays ← keep node
    pure (node, stays)
  let kept := (answers.filter (·.2)).map (·.1)
  let dropped := (answers.filter (!·.2)).map (·.1)
  pure ((doc.setParents none dropped).setChildren branch kept)

/-- Refuses a node that may not enter a new content of a branch after the nodes
`earlier`. Nodes whose parent is the branch stand for themselves; the others have
to be insertable, where the number of elements is left to `checkContent`. -/
def checkEntry (doc : Document) (branch : NodeId) (earlier : List NodeId) (node : NodeId) :
    Except TreeError Unit :=
  if node ∉ doc then .error (.unknownNode node)
  else if earlier.contains node then .error (.alreadyParented node)
  else if doc.parent? node = some branch then .ok ()
  else
    match doc.checkInsertable branch node with
    | .error .duplicateRootElement => .ok ()
    | result => result

/-- The number of elements in a list of handles. -/
def elementCount (doc : Document) (ids : List NodeId) : Nat :=
  ids.countP fun id => doc.nodeType? id == some .element

/-- Refuses a list of nodes that may not become the content of a branch; the first
node at fault, in the order of the list, decides. -/
def checkContent (doc : Document) (branch : NodeId) (earlier : List NodeId) :
    List NodeId → Except TreeError Unit
  | [] => .ok ()
  | node :: rest => do
    doc.checkEntry branch earlier node
    if doc.nodeType? branch = some .document ∧
        1 < doc.elementCount (node :: earlier) then
      .error .duplicateRootElement
    else doc.checkContent branch (node :: earlier) rest

/-- Replaces the content of a branch. Former children that are not listed again
are detached. -/
def setContent (branch : NodeId) (content : List NodeId) : Update Unit := do
  Update.check (·.checkContent branch [] content)
  let old := (← get).children branch
  Update.write (·.setParents none old)
  Update.write (·.setParents (some branch) content)
  Update.write (·.setChildren branch content)

/-! ## Processing instructions -/

/-- The children of a branch that are processing instructions. -/
def instructions (doc : Document) (branch : NodeId) : List NodeId :=
  (doc.children branch).filter fun id => doc.nodeType? id == some .instruction

/-- The children of a branch that are processing instructions for a target. -/
def instructionsFor (doc : Document) (branch : NodeId) (target : String) : List NodeId :=
  (doc.children branch).filter fun id => doc.target? id == some target

/-- Refuses a list of nodes that are not all processing instructions. -/
def checkInstructions (doc : Document) : List NodeId → Except TreeError Unit
  | [] => .ok ()
  | node :: rest =>
    match doc.nodeType? node with
    | none => .error (.emptySlot node)
    | some .instruction => doc.checkInstructions rest
    | some found => .error (.invalidNodeType .setInstructions found)

/-- Replaces the processing instructions of a branch. The other children stay, in
front of the new instructions. -/
def setInstructions (branch : NodeId) (given : List NodeId) : Update Unit := do
  Update.check (·.checkInstructions given)
  let doc ← get
  let others := (doc.children branch).filter fun id =>
    doc.nodeType? id != some .instruction
  setContent branch (others ++ given)

/-- Takes the first processing instruction for a target out of a branch, and tells
whether there was one. -/
def removeInstruction (branch : NodeId) (target : String) : Update Bool := do
  match ((← get).instructionsFor branch target).head? with
  | none => return false
  | some node => takeOut branch node

end XPathTree.Document
