import XPathTree.Proofs.Axis.Subtree
import XPathTree.Proofs.Document.Sorting

/-!
# The order of contents

A document that was handed an attribute by `setContent` has an attribute among the children of
some element, and no key tells where that attribute stands. The other nodes keep their places
(`WellFormed.placed`): what is above a node is no attribute, and the keys of contents are built
from lists of children alone, in which every node stands once. So children other than attributes
are in order in every document that a caller can hold (`WellFormed.inOrder_of_sublist_children`),
and sorting leaves lists of contents in order as they are (`Placed.sort_eq_self`).
-/

namespace XPathTree.Document

variable {doc : Document} {id parent : NodeId} {ids : List NodeId}

theorem siblings_of_isContent (content : doc.IsContent id) (parent : NodeId) :
    doc.siblings id parent = (1, doc.children parent) :=
  if_neg content

section WellFormed

variable (wf : doc.WellFormed)
include wf

/-- All nodes but attributes have their places. -/
theorem WellFormed.placed : doc.Placed doc.IsContent where
  -- a parent is a branch and so no attribute, whatever the node below it is
  above id parent _ h := (wf.parent_branch id parent h).isContent
  mem id parent content h := by
    rw [siblings_of_isContent content]
    exact wf.parent_children id parent h content
  nodup id parent content := by
    rw [siblings_of_isContent content]
    exact wf.children_nodup parent
  siblings id parent content other h hother := by
    rw [siblings_of_isContent content] at h ⊢
    exact ⟨wf.children_parent parent other h, siblings_of_isContent hother parent⟩

/-- Children other than attributes are in order. -/
theorem WellFormed.inOrder_of_sublist_children (h : ids.Sublist (doc.children parent))
    (content : ∀ id ∈ ids, doc.IsContent id) : doc.InOrder ids := by
  have hkey : ∀ id ∈ ids, doc.orderKey id =
      doc.orderKey parent ++ [1, ((doc.children parent).idxOf? id).getD 0] := by
    intro id hid
    rw [wf.orderKey_of_parent (wf.children_parent parent id (h.subset hid)), placeUnder,
      siblings_of_isContent (content id hid)]
  refine ((pairwise_idxOf? (wf.children_nodup parent)).sublist h).imp_of_mem ?_
  intro x y hx hy hlt
  show doc.orderKey x < doc.orderKey y
  rw [hkey x hx, hkey y hy]
  exact lt_of_places List.prefix_rfl List.prefix_rfl (.inr ⟨rfl, hlt⟩)

end WellFormed

end XPathTree.Document
