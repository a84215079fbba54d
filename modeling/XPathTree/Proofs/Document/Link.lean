import Mathlib.Tactic.ByContra
import XPathTree.Document.Content

/-!
# Links after an edit

A node is seen through three views: `kind?` (with `nodeType?` and `attributes`
read off it), `parent?` and `children`. Here is what each primitive change does to
each view, and `eq_of_views`: the views and the number of slots determine a
document.

Every edit of a branch comes down to one change, `relink`: the branch gets a new
content, former children are detached, listed nodes get the branch as parent.
-/

namespace XPathTree.Document

variable {doc : Document} {id other : NodeId}

theorem node?_eq_none_iff : doc.node? id = none ↔ id ∉ doc := by
  rw [mem_iff_isSome_node?]
  simp

theorem parent?_eq_none_of_not_mem (h : id ∉ doc) : doc.parent? id = none := by
  unfold parent?
  rw [node?_eq_none_iff.mpr h]
  rfl

theorem children_eq_nil_of_not_mem (h : id ∉ doc) : doc.children id = [] := by
  unfold children
  rw [node?_eq_none_iff.mpr h]
  rfl

theorem kind?_eq_none_iff : doc.kind? id = none ↔ id ∉ doc := by
  rw [← node?_eq_none_iff]
  simp [kind?]

theorem nodeType?_eq_none_iff : doc.nodeType? id = none ↔ id ∉ doc := by
  rw [← kind?_eq_none_iff]
  simp [nodeType?]

theorem mem_of_kind? {kind : NodeKind} (h : doc.kind? id = some kind) : id ∈ doc := by
  by_contra hid
  rw [kind?_eq_none_iff.mpr hid] at h
  cases h

theorem mem_of_nodeType? {type : NodeType} (h : doc.nodeType? id = some type) : id ∈ doc := by
  by_contra hid
  rw [nodeType?_eq_none_iff.mpr hid] at h
  cases h

theorem mem_of_mem_attributes (h : other ∈ doc.attributes id) : id ∈ doc := by
  by_contra hid
  unfold attributes at h
  rw [kind?_eq_none_iff.mpr hid] at h
  cases h

theorem mem_of_mem_children (h : other ∈ doc.children id) : id ∈ doc := by
  by_contra hid
  rw [children_eq_nil_of_not_mem hid] at h
  cases h

/-- The views and the number of slots determine a document. -/
theorem eq_of_views {a b : Document} (size : a.size = b.size)
    (kind : ∀ id, a.kind? id = b.kind? id) (parent : ∀ id, a.parent? id = b.parent? id)
    (children : ∀ id, a.children id = b.children id) : a = b := by
  obtain ⟨nodes⟩ := a
  obtain ⟨nodes'⟩ := b
  congr 1
  refine Array.ext size fun i hi hi' => ?_
  have hk := kind ⟨i⟩
  have hp := parent ⟨i⟩
  have hc := children ⟨i⟩
  simp only [kind?, parent?, Document.children, node?, Array.getElem?_eq_getElem hi,
    Array.getElem?_eq_getElem hi', Option.map_some, Option.bind_some, Option.some.injEq,
    Option.getD_some] at hk hp hc
  cases ha : nodes[i]
  cases hb : nodes'[i]
  simp_all

/-! ## Primitive changes -/

section Primitive

variable (doc : Document) (parent : Option NodeId) (id other : NodeId)

@[simp] theorem mem_setParent : other ∈ doc.setParent parent id ↔ other ∈ doc := by
  show other.slot < (doc.modify id _).size ↔ other.slot < doc.size
  rw [size_modify]

@[simp] theorem size_setParent : (doc.setParent parent id).size = doc.size :=
  size_modify ..

@[simp] theorem kind?_setParent : (doc.setParent parent id).kind? other = doc.kind? other := by
  unfold kind? setParent
  rw [node?_modify]
  split
  · rw [Option.map_map]
    rfl
  · rfl

@[simp] theorem children_setParent :
    (doc.setParent parent id).children other = doc.children other := by
  unfold children setParent
  rw [node?_modify]
  split
  · rw [Option.map_map]
    rfl
  · rfl

theorem parent?_setParent (h : id ∈ doc) :
    (doc.setParent parent id).parent? other =
      if other = id then parent else doc.parent? other := by
  unfold parent? setParent
  rw [node?_modify]
  by_cases heq : other = id
  · subst heq
    obtain ⟨node, hnode⟩ := Option.isSome_iff_exists.mp (mem_iff_isSome_node?.mp h)
    simp [hnode]
  · rw [if_neg (Ne.symm heq), if_neg heq]

@[simp] theorem size_setChildren (content : List NodeId) :
    (doc.setChildren id content).size = doc.size :=
  size_modify ..

@[simp] theorem mem_setChildren (content : List NodeId) :
    other ∈ doc.setChildren id content ↔ other ∈ doc := by
  show other.slot < (doc.setChildren id content).size ↔ other.slot < doc.size
  rw [size_setChildren]

@[simp] theorem kind?_setChildren (content : List NodeId) :
    (doc.setChildren id content).kind? other = doc.kind? other := by
  unfold kind? setChildren
  rw [node?_modify]
  split
  · rw [Option.map_map]
    rfl
  · rfl

@[simp] theorem parent?_setChildren (content : List NodeId) :
    (doc.setChildren id content).parent? other = doc.parent? other := by
  unfold parent? setChildren
  rw [node?_modify]
  split
  · rw [Option.bind_map]
    rfl
  · rfl

theorem children_setChildren (content : List NodeId) (h : id ∈ doc) :
    (doc.setChildren id content).children other =
      if other = id then content else doc.children other := by
  unfold children setChildren
  rw [node?_modify]
  by_cases heq : other = id
  · subst heq
    obtain ⟨node, hnode⟩ := Option.isSome_iff_exists.mp (mem_iff_isSome_node?.mp h)
    simp [hnode]
  · rw [if_neg (Ne.symm heq), if_neg heq]

end Primitive

/-! ## One child -/

section Child

variable (doc : Document) (branch : NodeId) (index : Nat) (id : NodeId)

@[simp] theorem size_link : (doc.link branch index id).size = doc.size := by
  simp [link]

@[simp] theorem mem_link : other ∈ doc.link branch index id ↔ other ∈ doc := by
  show other.slot < (doc.link branch index id).size ↔ other.slot < doc.size
  rw [size_link]

@[simp] theorem kind?_link (other : NodeId) :
    (doc.link branch index id).kind? other = doc.kind? other := by
  simp [link]

@[simp] theorem nodeType?_link (other : NodeId) :
    (doc.link branch index id).nodeType? other = doc.nodeType? other := by
  simp [nodeType?]

theorem parent?_link (h : id ∈ doc) (other : NodeId) :
    (doc.link branch index id).parent? other =
      if other = id then some branch else doc.parent? other := by
  unfold link
  rw [parent?_setParent _ _ _ _ (by simpa using h), parent?_setChildren]

theorem children_link (h : branch ∈ doc) (other : NodeId) :
    (doc.link branch index id).children other =
      if other = branch then (doc.children branch).insertIdx index id else doc.children other := by
  unfold link
  rw [children_setParent, children_setChildren _ _ _ _ h]

@[simp] theorem size_unlink : (doc.unlink branch index id).size = doc.size := by
  simp [unlink]

@[simp] theorem mem_unlink : other ∈ doc.unlink branch index id ↔ other ∈ doc := by
  show other.slot < (doc.unlink branch index id).size ↔ other.slot < doc.size
  rw [size_unlink]

@[simp] theorem kind?_unlink (other : NodeId) :
    (doc.unlink branch index id).kind? other = doc.kind? other := by
  simp [unlink]

@[simp] theorem nodeType?_unlink (other : NodeId) :
    (doc.unlink branch index id).nodeType? other = doc.nodeType? other := by
  simp [nodeType?]

theorem parent?_unlink (h : id ∈ doc) (other : NodeId) :
    (doc.unlink branch index id).parent? other =
      if other = id then none else doc.parent? other := by
  unfold unlink
  rw [parent?_setParent _ _ _ _ (by simpa using h), parent?_setChildren]

theorem children_unlink (h : branch ∈ doc) (other : NodeId) :
    (doc.unlink branch index id).children other =
      if other = branch then (doc.children branch).eraseIdx index else doc.children other := by
  unfold unlink
  rw [children_setParent, children_setChildren _ _ _ _ h]

end Child

/-! ## Several parents -/

@[simp] theorem size_setParents (doc : Document) (parent : Option NodeId) (ids : List NodeId) :
    (doc.setParents parent ids).size = doc.size := by
  induction ids generalizing doc with
  | nil => rfl
  | cons id rest ih => exact (ih (doc.setParent parent id)).trans (size_setParent doc parent id)

@[simp] theorem mem_setParents (doc : Document) (parent : Option NodeId) (ids : List NodeId)
    (other : NodeId) : other ∈ doc.setParents parent ids ↔ other ∈ doc := by
  show other.slot < (doc.setParents parent ids).size ↔ other.slot < doc.size
  rw [size_setParents]

@[simp] theorem kind?_setParents (doc : Document) (parent : Option NodeId) (ids : List NodeId)
    (other : NodeId) : (doc.setParents parent ids).kind? other = doc.kind? other := by
  induction ids generalizing doc with
  | nil => rfl
  | cons id rest ih =>
      exact (ih (doc.setParent parent id)).trans (kind?_setParent doc parent id other)

@[simp] theorem children_setParents (doc : Document) (parent : Option NodeId)
    (ids : List NodeId) (other : NodeId) :
    (doc.setParents parent ids).children other = doc.children other := by
  induction ids generalizing doc with
  | nil => rfl
  | cons id rest ih =>
      exact (ih (doc.setParent parent id)).trans (children_setParent doc parent id other)

theorem parent?_setParents {doc : Document} (parent : Option NodeId) {ids : List NodeId}
    (known : ∀ id ∈ ids, id ∈ doc) (other : NodeId) :
    (doc.setParents parent ids).parent? other =
      if other ∈ ids then parent else doc.parent? other := by
  induction ids generalizing doc with
  | nil => rfl
  | cons id rest ih =>
      have hid : id ∈ doc := known id List.mem_cons_self
      have hrest : ∀ x ∈ rest, x ∈ doc.setParent parent id := by
        intro x hx
        rw [mem_setParent]
        exact known x (List.mem_cons_of_mem _ hx)
      show ((doc.setParent parent id).setParents parent rest).parent? other = _
      rw [ih hrest, parent?_setParent doc parent id other hid]
      by_cases hmem : other ∈ rest
      · rw [if_pos hmem, if_pos (List.mem_cons_of_mem _ hmem)]
      · by_cases heq : other = id
        · rw [if_neg hmem, if_pos heq, if_pos (heq ▸ List.mem_cons_self)]
        · rw [if_neg hmem, if_neg heq, if_neg (by simp [heq, hmem])]

/-! ## A new content -/

/-- The document in which a branch has the given content: former children are
detached, and the nodes of the content have the branch as their parent. -/
def relink (doc : Document) (branch : NodeId) (content : List NodeId) : Document :=
  ((doc.setParents none (doc.children branch)).setParents (some branch) content).setChildren
    branch content

section Relink

variable (doc : Document) (branch : NodeId) (content : List NodeId)

@[simp] theorem size_relink : (doc.relink branch content).size = doc.size := by
  simp [relink]

@[simp] theorem mem_relink : id ∈ doc.relink branch content ↔ id ∈ doc := by
  show id.slot < (doc.relink branch content).size ↔ id.slot < doc.size
  rw [size_relink]

@[simp] theorem kind?_relink (id : NodeId) :
    (doc.relink branch content).kind? id = doc.kind? id := by
  simp [relink]

@[simp] theorem nodeType?_relink (id : NodeId) :
    (doc.relink branch content).nodeType? id = doc.nodeType? id := by
  simp [nodeType?]

@[simp] theorem attributes_relink (id : NodeId) :
    (doc.relink branch content).attributes id = doc.attributes id := by
  simp [attributes]

theorem children_relink (h : branch ∈ doc) (id : NodeId) :
    (doc.relink branch content).children id =
      if id = branch then content else doc.children id := by
  unfold relink
  rw [children_setChildren _ _ _ _ (by simpa using h)]
  simp

theorem parent?_relink (former : ∀ id ∈ doc.children branch, id ∈ doc)
    (known : ∀ id ∈ content, id ∈ doc) (id : NodeId) :
    (doc.relink branch content).parent? id =
      if id ∈ content then some branch
      else if id ∈ doc.children branch then none
      else doc.parent? id := by
  unfold relink
  rw [parent?_setChildren, parent?_setParents _ (by simpa using known),
    parent?_setParents _ former]

end Relink

end XPathTree.Document
