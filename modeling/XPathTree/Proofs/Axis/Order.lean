import XPathTree.Proofs.Evaluation.Proximity

/-!
# The order of the nodes on an axis

Each axis builds its list in its own way: from a climb that is reversed, from the siblings on one
side, from subtrees that hang at level after level. Whatever the way, the list is a part of the
walk of the tree (`Orderly.axis_sublist_walk`). So sorting it changes nothing, and on an axis that
looks back the reversed list begins with the nearest node.
-/

namespace XPathTree.Document

variable {doc : Document} {id x : NodeId}

section Lists

variable (orderly : doc.Orderly) {axis : Axis} (hid : id ∈ doc)
include orderly hid

theorem Orderly.mem_of_mem_axis (hx : x ∈ doc.axis axis id) : x ∈ doc := by
  have wf := orderly.wellFormed
  rw [← wf.treeRoot_mem_iff, orderly.treeRoot_of_mem_axis hx, wf.treeRoot_mem_iff]
  exact hid

/-- The walk of a tree meets the nodes on an axis in the order in which the axis lists them. -/
theorem Orderly.axis_sublist_walk (axis : Axis) :
    (doc.axis axis id).Sublist (doc.walk (doc.treeRoot id)) := by
  refine (orderly.inOrder_axis axis hid).sublist_of_subset (orderly.inOrder_walk _) fun x hx => ?_
  have hwalk := mem_walk_treeRoot orderly.wellFormed orderly.listed orderly.apart
    (orderly.mem_of_mem_axis hid hx)
  rwa [orderly.treeRoot_of_mem_axis hx] at hwalk

/-- From the last node of an axis that looks back on, the nodes come by nearness. -/
theorem Orderly.nearer_reverse (hback : axis.LooksBack) :
    (doc.axis axis id).reverse.Pairwise (doc.Nearer axis) := by
  refine (List.pairwise_reverse.mpr (orderly.inOrder_axis axis hid)).imp fun h => ?_
  exact (if_pos hback).mpr h

end Lists

/-- The list on an axis of a node is strictly increasing in document order, by keys and in the
walk of the tree. So it is the node-set of its nodes as it stands, and on the axes of ancestors
and of preceding nodes and siblings the reversed list has every node at its proximity. -/
theorem axis_increasing (careful : doc.Careful) (hid : id ∈ doc) (axis : Axis) :
    (doc.axis axis id).Pairwise (fun x y => doc.orderKey x < doc.orderKey y) ∧
      (doc.axis axis id).Sublist (doc.walk (doc.treeRoot id)) ∧
      NodeSet.ofNodes doc (doc.axis axis id) = ⟨doc.axis axis id⟩ ∧
      (axis.LooksBack → ∀ before node behind,
        (doc.axis axis id).reverse = before ++ node :: behind →
          doc.proximity axis (doc.axis axis id).toFinset node = 1 + before.length) := by
  have orderly := careful.orderly
  have hinOrder := orderly.inOrder_axis axis hid
  refine ⟨hinOrder, orderly.axis_sublist_walk hid axis,
    congrArg NodeSet.mk (orderly.sort_eq_self hinOrder), ?_⟩
  intro hback before node behind hsplit
  have near := orderly.nearer_reverse hid hback
  rw [← List.toFinset_reverse, hsplit]
  rw [hsplit] at near
  exact proximity_eq near

/-- In a detached tree, an element with an attribute follows two comments. What precedes the
attribute is what precedes its element, and the second comment is the nearest. -/
theorem axis_increasing_attribute :
    let commands : List Command := [.createElement (.plain "e") [],
      .edit ⟨1⟩ (.addComment "c"), .edit ⟨1⟩ (.addComment "d"),
      .edit ⟨1⟩ (.addElement (.plain "f") [(.plain "a", "v")])]
    let doc := empty.run commands
    doc.Careful ∧ (⟨5⟩ : NodeId) ∈ doc ∧ doc.parent? ⟨1⟩ = none ∧
      doc.nodeType? ⟨5⟩ = some .attribute ∧ doc.axis .preceding ⟨5⟩ = [⟨2⟩, ⟨3⟩] ∧
      NodeSet.ofNodes doc [⟨2⟩, ⟨3⟩] = ⟨[⟨2⟩, ⟨3⟩]⟩ ∧
      doc.proximity .preceding [⟨2⟩, ⟨3⟩].toFinset ⟨2⟩ = 2 := by
  intro commands doc
  have careful : doc.Careful := ⟨commands, by decide, rfl⟩
  have hid : (⟨5⟩ : NodeId) ∈ doc := by decide
  have haxis : doc.axis .preceding ⟨5⟩ = [⟨2⟩, ⟨3⟩] := by decide
  obtain ⟨_, _, hset, hproximity⟩ := axis_increasing careful hid .preceding
  rw [haxis] at hset hproximity
  exact ⟨careful, hid, by decide, by decide, haxis, hset, hproximity (by decide) [⟨3⟩] ⟨2⟩ [] rfl⟩

end XPathTree.Document
