import Mathlib.Data.List.Forall2
import XPathTree.Evaluation
import XPathTree.Library.CoreFunction

/-!
# Documents that mirror each other

Two documents mirror each other if each handle of interest has a twin in the other document,
and what is read at twins is the same: their payloads, but for the handles in them, and lists
that are twins one by one, on each axis and after sorting. An evaluation reads a document in
more ways than these (`stringValue`, `localNameOf`, `identified`, `speaks`, …), but all of them
come down to payloads, axes and sorting. So they read the same at twins, too.

Nothing is asked of a handle without a twin.
-/

namespace XPathTree

/-! ## Payloads without handles -/

/-- A payload without the handles in it. -/
def NodeKind.bare : NodeKind → NodeKind
  | .element name _ => .element name []
  | kind => kind

/-- Payloads without their handles are the same for the same payloads, and for elements of the
same name. -/
theorem NodeKind.cases_of_bare_eq {a b : Option NodeKind}
    (h : a.map (·.bare) = b.map (·.bare)) :
    a = b ∨ ∃ name attributes attributes',
      a = some (.element name attributes) ∧ b = some (.element name attributes') := by
  cases a with
  | none =>
      cases b with
      | none => exact .inl rfl
      | some => cases h
  | some kind =>
      cases b with
      | none => cases h
      | some kind' =>
          cases kind <;> cases kind' <;> cases h
          case element.element.refl name attributes attributes' =>
            exact .inr ⟨name, attributes, attributes', rfl, rfl⟩
          all_goals exact .inl rfl

/-! ## Lists of twins -/

section Twins

variable {α : Type} {twin : NodeId → NodeId → Prop} {xs ys : List NodeId}

theorem filterMap_eq_of_twins {f g : NodeId → Option α} (h : ∀ x y, twin x y → f x = g y)
    (twins : List.Forall₂ twin xs ys) : xs.filterMap f = ys.filterMap g := by
  induction twins with
  | nil => rfl
  | cons hxy _ ih => rw [List.filterMap_cons, List.filterMap_cons, h _ _ hxy, ih]

theorem map_eq_of_twins {f g : NodeId → α} (h : ∀ x y, twin x y → f x = g y)
    (twins : List.Forall₂ twin xs ys) : xs.map f = ys.map g := by
  rw [← List.filterMap_eq_map, ← List.filterMap_eq_map]
  exact filterMap_eq_of_twins (fun x y hxy => congrArg some (h x y hxy)) twins

theorem findSome?_eq_of_twins {f g : NodeId → Option α} (h : ∀ x y, twin x y → f x = g y)
    (twins : List.Forall₂ twin xs ys) : xs.findSome? f = ys.findSome? g := by
  rw [← List.head?_filterMap, ← List.head?_filterMap, filterMap_eq_of_twins h twins]

theorem filter_twins {p q : NodeId → Bool} (h : ∀ x y, twin x y → p x = q y)
    (twins : List.Forall₂ twin xs ys) : List.Forall₂ twin (xs.filter p) (ys.filter q) :=
  List.rel_filter (fun x y hxy => Bool.eq_iff_iff.mp (h x y hxy)) twins

end Twins

namespace Document

/-- What is read of the second document at the twin of a handle is what is read of the first
document at the handle. -/
structure Mirrors (twin : NodeId → NodeId → Prop) (doc doc' : Document) : Prop where
  payload {x y : NodeId} (h : twin x y) : (doc.kind? x).map (·.bare) = (doc'.kind? y).map (·.bare)
  axis {x y : NodeId} (h : twin x y) (axis : Axis) :
    List.Forall₂ twin (doc.axis axis x) (doc'.axis axis y)
  sort {xs ys : List NodeId} (h : List.Forall₂ twin xs ys) :
    List.Forall₂ twin (doc.sort xs) (doc'.sort ys)

namespace Mirrors

variable {twin : NodeId → NodeId → Prop} {doc doc' : Document} {x y : NodeId}
variable (mirrors : doc.Mirrors twin doc')
include mirrors

/-! ## Payloads -/

theorem kind?_cases (h : twin x y) :
    doc.kind? x = doc'.kind? y ∨ ∃ name attributes attributes',
      doc.kind? x = some (.element name attributes) ∧
        doc'.kind? y = some (.element name attributes') :=
  NodeKind.cases_of_bare_eq (mirrors.payload h)

theorem nodeType?_eq (h : twin x y) : doc.nodeType? x = doc'.nodeType? y := by
  unfold nodeType?
  rcases mirrors.kind?_cases h with heq | ⟨name, _, _, hx, hy⟩
  · rw [heq]
  · rw [hx, hy]
    rfl

theorem name?_eq (h : twin x y) : doc.name? x = doc'.name? y := by
  unfold name?
  rcases mirrors.kind?_cases h with heq | ⟨name, _, _, hx, hy⟩
  · rw [heq]
  · rw [hx, hy]
    rfl

theorem accepts_eq (test : SettledTest) (h : twin x y) :
    test.accepts (doc.kind? x) = test.accepts (doc'.kind? y) := by
  rcases mirrors.kind?_cases h with heq | ⟨name, _, _, hx, hy⟩
  · rw [heq]
  · rw [hx, hy]
    cases test with
    | instruction target => cases target <;> rfl
    | node | ofType | named => rfl

theorem attributeNamed?_eq (name : QName) (h : twin x y) :
    doc.attributeNamed? name x = doc'.attributeNamed? name y := by
  unfold attributeNamed?
  rcases mirrors.kind?_cases h with heq | ⟨name, _, _, hx, hy⟩
  · rw [heq]
  · rw [hx, hy]

theorem localNameOf_eq (h : twin x y) : doc.localNameOf x = doc'.localNameOf y := by
  unfold localNameOf
  rcases mirrors.kind?_cases h with heq | ⟨name, _, _, hx, hy⟩
  · rw [heq]
  · rw [hx, hy]

theorem lexicalNameOf_eq (h : twin x y) : doc.lexicalNameOf x = doc'.lexicalNameOf y := by
  unfold lexicalNameOf
  rcases mirrors.kind?_cases h with heq | ⟨name, _, _, hx, hy⟩
  · rw [heq]
  · rw [hx, hy]

theorem namespaceOf_eq (h : twin x y) : doc.namespaceOf x = doc'.namespaceOf y := by
  unfold namespaceOf
  rw [mirrors.name?_eq h]

/-! ## Text -/

theorem textBelow_eq (h : twin x y) : doc.textBelow x = doc'.textBelow y := by
  refine congrArg String.join (filterMap_eq_of_twins ?_ (mirrors.axis h .descendant))
  intro d d' hd
  rcases mirrors.kind?_cases hd with heq | ⟨name, _, _, hx, hy⟩
  · rw [heq]
  · rw [hx, hy]
    rfl

theorem stringValue_eq (h : twin x y) : doc.stringValue x = doc'.stringValue y := by
  unfold stringValue stringValue?
  rw [mirrors.textBelow_eq h]
  rcases mirrors.kind?_cases h with heq | ⟨name, _, _, hx, hy⟩
  · rw [heq]
  · rw [hx, hy]
    rfl

/-! ## Trees, identifiers, languages -/

theorem twin_treeRoot (h : twin x y) : twin (doc.treeRoot x) (doc'.treeRoot y) := by
  have hancestors : List.Forall₂ twin (doc.ancestors x).reverse (doc'.ancestors y).reverse :=
    mirrors.axis h .ancestor
  unfold treeRoot
  rw [← List.head?_reverse, ← List.head?_reverse]
  generalize (doc.ancestors x).reverse = outward at hancestors
  generalize (doc'.ancestors y).reverse = outward' at hancestors
  cases hancestors with
  | nil => exact h
  | cons hroot _ => exact hroot

theorem candidates (axis : Axis) (test : SettledTest) (h : twin x y) :
    List.Forall₂ twin (doc.candidates axis test x) (doc'.candidates axis test y) := by
  have hfound := filter_twins (fun x y => mirrors.accepts_eq (x := x) (y := y) test)
    (mirrors.axis h axis)
  unfold Document.candidates
  dsimp only
  split
  · exact List.rel_reverse hfound
  · exact hfound

theorem attribute?_eq (lexical : String) (h : twin x y) :
    doc.attribute? x lexical = doc'.attribute? y lexical :=
  findSome?_eq_of_twins (fun _ _ => mirrors.attributeNamed?_eq _) (mirrors.axis h .attribute)

theorem isIdentifiedBy_eq (wanted : List String) (h : twin x y) :
    doc.isIdentifiedBy wanted x = doc'.isIdentifiedBy wanted y := by
  unfold isIdentifiedBy
  simp only [mirrors.nodeType?_eq h, mirrors.attribute?_eq _ h]

theorem identified (wanted : List String) (h : twin x y) :
    List.Forall₂ twin (doc.identified wanted x) (doc'.identified wanted y) :=
  filter_twins (fun _ _ => mirrors.isIdentifiedBy_eq wanted)
    (mirrors.axis (mirrors.twin_treeRoot h) .descendantOrSelf)

theorem language?_eq (h : twin x y) : doc.language? x = doc'.language? y := by
  have hancestors := List.rel_reverse (mirrors.axis h .ancestorOrSelf)
  simp only [Document.axis, List.reverse_append, List.reverse_reverse] at hancestors
  exact findSome?_eq_of_twins (fun _ _ => mirrors.attribute?_eq _) hancestors

theorem speaks_eq (wanted : String) (h : twin x y) :
    doc.speaks x wanted = doc'.speaks y wanted := by
  unfold speaks
  rw [mirrors.language?_eq h]

end Mirrors

/-- A document mirrors itself. -/
theorem Mirrors.refl (doc : Document) : doc.Mirrors Eq doc where
  payload h := by rw [h]
  axis h axis := by
    rw [h]
    exact List.forall₂_refl _
  sort h := by
    rw [List.forall₂_eq_eq_eq] at h
    rw [h]
    exact List.forall₂_refl _

end Document

end XPathTree
