import XPathTree.Proofs.Document.Locality
import XPathTree.Proofs.Name.Lexical

/-!
# The names that elements are given

An element has the name that it was given by the command that created it. `namedDuring` collects,
along a run, the elements that are created and the names they are given; what it holds is what the
elements of the document are called afterwards (`WellFormed.isNamed_run_iff`). In a lexical run
every element gets its name as a text, so that to ask for the name of an element is to ask for the
text it was given.
-/

namespace XPathTree

/-- The name that a command has for a new element. -/
def Command.elementName? : Command → Option QName
  | .createElement name _ | .edit _ (.addElement name _) => some name
  | _ => none

/-- The command gives new elements no name but one that a text is read as. -/
def Command.IsLexical (command : Command) : Prop :=
  ∀ name, command.elementName? = some name → ∃ text, name = .ofLexical text

/-- The only text that a name can be read from is the one that it is written as. -/
instance (command : Command) : Decidable command.IsLexical :=
  decidable_of_iff (∀ name ∈ command.elementName?, .ofLexical name.lexical = name) <| by
    refine forall₂_congr fun name _ => ⟨fun h => ⟨name.lexical, h.symm⟩, ?_⟩
    rintro ⟨text, rfl⟩
    rw [QName.lexical_ofLexical]

namespace Document

variable {doc : Document} {id : NodeId} {name : QName} {command : Command}

/-! ## One command -/

/-- The element that a command creates, with the name it is given. -/
def named (doc : Document) (command : Command) : List (NodeId × QName) :=
  match doc.commandCreates command with
  | some (.element name _, _) => [(doc.next, name)]
  | _ => []

/-- The elements that a run creates, each with the name it is given. -/
def namedDuring (doc : Document) : List Command → List (NodeId × QName)
  | [] => []
  | command :: rest => doc.named command ++ (doc.perform command).1.namedDuring rest

/-- The node is an element of the given name. -/
def IsNamed (doc : Document) (id : NodeId) (name : QName) : Prop :=
  ∃ attributes, doc.kind? id = some (.element name attributes)

/-- Of new nodes only the first may be an element; the others are its attributes. -/
theorem isNamed_grow_iff {kind : NodeKind} {attributes : List (QName × String)} :
    (doc.grow kind attributes).IsNamed id name ↔
      doc.IsNamed id name ∨ id = doc.next ∧ ∃ listed, kind = .element name listed := by
  unfold IsNamed
  by_cases hid : id ∈ doc
  · have hne : id ≠ doc.next := fun h => doc.next_not_mem (h ▸ hid)
    rw [doc.kind?_grow_of_mem kind attributes hid]
    simp [hne]
  · rw [kind?_eq_none_iff.mpr hid]
    simp only [reduceCtorEq, exists_false, false_or]
    constructor
    · rintro ⟨listed, hkind⟩
      have hmem := mem_of_kind? hkind
      -- the node is new: it is the first one, or one of the attributes behind it
      rw [mem_grow_iff] at hmem
      rcases hmem with hmem | rfl | hmem
      · exact absurd hmem hid
      · rw [kind?_grow_next] at hkind
        exact ⟨rfl, listed, Option.some.inj hkind⟩
      · have htype := doc.nodeType?_grow_of_mem_nextHandles kind attributes hmem
        rw [nodeType?, hkind] at htype
        cases htype
    · rintro ⟨rfl, listed, rfl⟩
      exact ⟨listed, doc.kind?_grow_next _ _⟩

/-- An element is named before a command, or the command creates it by that name. -/
theorem WellFormed.isNamed_perform_iff (wf : doc.WellFormed) (command : Command) :
    (doc.perform command).1.IsNamed id name ↔
      doc.IsNamed id name ∨ (id, name) ∈ doc.named command := by
  have hgrown : (doc.perform command).1.IsNamed id name ↔ (doc.grown command).IsNamed id name := by
    unfold IsNamed
    rw [wf.kind?_perform_eq_grown]
  rw [hgrown]
  unfold named
  cases h : doc.commandCreates command with
  | none =>
      rw [grown_of_none h]
      simp
  | some created =>
      obtain ⟨kind, attributes⟩ := created
      rw [grown_of_some h, isNamed_grow_iff]
      cases kind with
      | element given listed => simp [eq_comm]
      | _ => simp

/-- The name of a created element is the one that the command has for it. -/
theorem elementName?_of_mem_named (h : (id, name) ∈ doc.named command) :
    command.elementName? = some name := by
  have hgiven : ∀ {given : QName}, (id, name) ∈ [(doc.next, given)] → given = name :=
    fun h => (Prod.mk.inj (List.mem_singleton.mp h)).2.symm
  cases command with
  | createElement given list => exact congrArg some (hgiven h)
  | createText | createComment | createInstruction => cases h
  | edit branch change =>
      unfold named at h
      by_cases hbranch : doc.IsBranch branch
      · rw [commandCreates_edit hbranch] at h
        cases change with
        | addElement given list => exact congrArg some (hgiven h)
        | _ => cases h
      · rw [commandCreates_edit_of_idle fun hb => absurd hb hbranch] at h
        cases h

/-! ## Runs -/

/-- After a run the elements are called what they were called before it or named during it. -/
theorem WellFormed.isNamed_run_iff (wf : doc.WellFormed) {commands : List Command} :
    (doc.run commands).IsNamed id name ↔
      doc.IsNamed id name ∨ (id, name) ∈ doc.namedDuring commands := by
  induction commands generalizing doc with
  | nil =>
      show doc.IsNamed id name ↔ _
      simp [namedDuring]
  | cons command rest ih =>
      show ((doc.perform command).1.run rest).IsNamed id name ↔ _
      rw [ih (wf.perform command), wf.isNamed_perform_iff, or_assoc, ← List.mem_append]
      rfl

/-- The elements of a document that a caller can hold are those that were named on the way. -/
theorem isNamed_run_empty_iff {commands : List Command} :
    (empty.run commands).IsNamed id name ↔ (id, name) ∈ empty.namedDuring commands := by
  rw [wellFormed_empty.isNamed_run_iff]
  refine or_iff_right ?_
  rintro ⟨listed, hkind⟩
  unfold kind? at hkind
  rw [node?_empty] at hkind
  split at hkind <;> cases hkind

/-! ## Names given as texts -/

/-- A run created the element by the name that a text is read as. -/
def NamedAs (doc : Document) (commands : List Command) (text : String) (id : NodeId) : Prop :=
  (id, QName.ofLexical text) ∈ doc.namedDuring commands

instance (doc : Document) (commands : List Command) (text : String) (id : NodeId) :
    Decidable (doc.NamedAs commands text id) :=
  inferInstanceAs (Decidable (_ ∈ _))

/-- In a lexical run every element is named by a text. -/
theorem exists_namedAs {commands : List Command}
    (lexical : ∀ command ∈ commands, command.IsLexical)
    (h : (id, name) ∈ doc.namedDuring commands) :
    ∃ text, name = .ofLexical text ∧ doc.NamedAs commands text id := by
  have hname : ∃ text, name = .ofLexical text := by
    induction commands generalizing doc with
    | nil => cases h
    | cons command rest ih =>
        rw [List.forall_mem_cons] at lexical
        rcases List.mem_append.mp h with h | h
        · exact lexical.1 name (elementName?_of_mem_named h)
        · exact ih lexical.2 h
  obtain ⟨text, rfl⟩ := hname
  exact ⟨text, rfl, h⟩

end Document

end XPathTree
