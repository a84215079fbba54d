import XPathTree.Document.Edit
import XPathTree.Proofs.Document.Link

/-!
# What updates do

One equation for each update of a branch. An update that can be refused has its checks
in front of its only write: it answers with the document as it was and the refusal of the
checks, or else with the document that was written. That nothing is left behind by a
refused update is what these equations say; it is read off the order of the steps here
and nowhere else.
-/

namespace XPathTree.Document

/-! ## Insertions -/

theorem apply_insertChild (doc : Document) (branch : NodeId) (index : Nat) (id : NodeId) :
    doc.apply (insertChild branch index id) =
      if (doc.children branch).length < index then
        (doc, .error (.indexOutOfRange index (doc.children branch).length))
      else
        match doc.checkInsertable branch id with
        | .ok _ => (doc.link branch index id, .ok ())
        | .error refusal => (doc, .error refusal) := by
  unfold insertChild
  rw [apply_check_bind, checkPlace]
  by_cases hindex : (doc.children branch).length < index
  · simp only [if_pos hindex]
  · simp only [if_neg hindex]
    rw [apply_check_bind]
    cases doc.checkInsertable branch id with
    | error refusal => rfl
    | ok _ => rfl

/-- A push is never out of range. -/
theorem apply_pushChild (doc : Document) (branch id : NodeId) :
    doc.apply (pushChild branch id) =
      match doc.checkInsertable branch id with
      | .ok _ => (doc.linkLast branch id, .ok ())
      | .error refusal => (doc, .error refusal) := by
  unfold pushChild linkLast
  rw [apply_get_bind, apply_insertChild, if_neg (Nat.lt_irrefl _)]

/-- A type that the branch does not take is the first thing insertion complains of. -/
theorem checkInsertable_of_checkType {doc : Document} {branch id : NodeId} {found : NodeType}
    (h : doc.nodeType? id = some found) {refusal : TreeError}
    (hcheck : checkType (doc.nodeType? branch) found = .error refusal) :
    doc.checkInsertable branch id = .error refusal := by
  unfold checkInsertable
  rw [h]
  simp only [hcheck, bind, Except.bind]

/-- Looking at the type of a node first makes no difference. -/
theorem apply_addChild (doc : Document) (branch id : NodeId) :
    doc.apply (addChild branch id) = doc.apply (pushChild branch id) := by
  -- where `addChild` refuses a type, the insertion would have refused it first
  have hpush : ∀ refusal, doc.checkInsertable branch id = .error refusal →
      (doc, .error refusal) = doc.apply (pushChild branch id) := by
    intro refusal h
    rw [apply_pushChild, h]
  unfold addChild
  rw [apply_get_bind]
  cases hfound : doc.nodeType? id with
  | none =>
      refine hpush _ ?_
      unfold checkInsertable
      rw [hfound]
  | some found =>
      cases found with
      | element => rfl
      | comment => rfl
      | instruction => rfl
      | text =>
          by_cases hdocument : doc.nodeType? branch = some .document
          · simp only [if_pos hdocument]
            refine hpush _ (checkInsertable_of_checkType hfound ?_)
            rw [hdocument]
            rfl
          · simp only [if_neg hdocument]
      | _ => exact hpush _ (checkInsertable_of_checkType hfound rfl)

/-- A node that was created is pushed. -/
theorem apply_appendNew (doc : Document) (branch id : NodeId) :
    doc.apply (appendNew branch id) =
      match doc.checkInsertable branch id with
      | .ok _ => (doc.linkLast branch id, .ok id)
      | .error refusal => (doc, .error refusal) := by
  unfold appendNew
  rw [apply_check_bind]
  cases doc.checkInsertable branch id with
  | error refusal => rfl
  | ok _ => rfl

/-! ## Removals -/

theorem apply_removeChildAt (doc : Document) (branch : NodeId) (index : Nat) :
    doc.apply (removeChildAt branch index) =
      match doc.childAt branch index with
      | .ok id => (doc.unlink branch index id, .ok id)
      | .error refusal => (doc, .error refusal) := by
  unfold removeChildAt
  rw [apply_check_bind]
  cases doc.childAt branch index with
  | error refusal => rfl
  | ok id => rfl

theorem apply_takeOut (doc : Document) (branch id : NodeId) :
    doc.apply (takeOut branch id) =
      match doc.indexOf? branch id with
      | none => (doc, .ok false)
      | some index => (doc.unlink branch index id, .ok true) := by
  unfold takeOut
  rw [apply_get_bind]
  cases doc.indexOf? branch id with
  | none => rfl
  | some index => rfl

/-- Only what the tree counts as children is looked for. -/
theorem apply_removeChild (doc : Document) (branch id : NodeId) :
    doc.apply (removeChild branch id) =
      match doc.nodeType? id with
      | none | some .document | some .attribute => (doc, .ok false)
      | some _ => doc.apply (takeOut branch id) := by
  unfold removeChild
  rw [apply_get_bind]
  cases doc.nodeType? id with
  | none => rfl
  | some found => cases found <;> rfl

theorem apply_removeInstruction (doc : Document) (branch : NodeId) (target : String) :
    doc.apply (removeInstruction branch target) =
      match (doc.instructionsFor branch target).head? with
      | none => (doc, .ok false)
      | some id => doc.apply (takeOut branch id) := by
  unfold removeInstruction
  rw [apply_get_bind]
  cases (doc.instructionsFor branch target).head? with
  | none => rfl
  | some id => rfl

/-! ## Whole contents -/

theorem apply_retain (doc : Document) (branch : NodeId) (keep : List NodeId → NodeId → Bool) :
    doc.apply (editContent branch (.retain keep)) =
      ((doc.retainAsking branch keep).1, .ok (.asked (doc.retainAsking branch keep).2)) :=
  rfl

theorem apply_setContent (doc : Document) (branch : NodeId) (content : List NodeId) :
    doc.apply (setContent branch content) =
      match doc.checkContent branch [] content with
      | .ok _ => (doc.relink branch content, .ok ())
      | .error refusal => (doc, .error refusal) := by
  unfold setContent
  rw [apply_check_bind]
  cases doc.checkContent branch [] content with
  | error refusal => rfl
  | ok _ => rfl

/-- The children of a branch that are no processing instructions. -/
def otherChildren (doc : Document) (branch : NodeId) : List NodeId :=
  (doc.children branch).filter fun id => doc.nodeType? id != some .instruction

/-- To set processing instructions is to replace the content, once all of them are such. -/
theorem apply_setInstructions (doc : Document) (branch : NodeId) (given : List NodeId) :
    doc.apply (setInstructions branch given) =
      match doc.checkInstructions given with
      | .ok _ => doc.apply (setContent branch (doc.otherChildren branch ++ given))
      | .error refusal => (doc, .error refusal) := by
  unfold setInstructions
  rw [apply_check_bind]
  cases doc.checkInstructions given with
  | error refusal => rfl
  | ok _ => rfl

end XPathTree.Document
