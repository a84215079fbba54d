import Mathlib.Data.List.Forall2
import XPathTree.Proofs.Document.Locality
import XPathTree.Proofs.Name.Lexical

/-!
# Looking up attributes by written names

`attribute?` reads the name it is asked for and takes the value of the first attribute whose name
denotes the same. Attributes that were given written names are told apart by these names alone:
the lookup is a lookup of texts in the list that the element was created with
(`attribute?_of_bears`). What an element bears is settled when it is created, and every run leaves
it at that (`WellFormed.bears_run`).
-/

namespace XPathTree

/-- The commands that create an element with attributes: by itself, or in a branch. -/
inductive Command.MakesElement (name : QName) (attributes : List (QName × String)) :
    Command → Prop
  | alone : MakesElement name attributes (.createElement name attributes)
  | inBranch (branch : NodeId) :
      MakesElement name attributes (.edit branch (.addElement name attributes))

namespace Document

variable {doc : Document} {element branch id : NodeId} {pairs : List (String × String)}

/-- Attributes with their names as they are written. -/
def lexicalAttributes (pairs : List (String × String)) : List (QName × String) :=
  pairs.map fun pair => (.ofLexical pair.1, pair.2)

/-- The attributes of the element have these names and values, in this order. -/
def Bears (doc : Document) (element : NodeId) (attributes : List (QName × String)) : Prop :=
  List.Forall₂ (fun id pair => doc.kind? id = some (.attribute pair.1 pair.2))
    (doc.attributes element) attributes

/-! ## Lookup -/

/-- To ask for a written name is to look for this text among the written names. -/
theorem findSome?_attributeNamed?_eq_lookup {ids : List NodeId}
    (h : List.Forall₂ (fun id pair => doc.kind? id = some (.attribute pair.1 pair.2)) ids
      (lexicalAttributes pairs)) (text : String) :
    ids.findSome? (doc.attributeNamed? (.ofLexical text)) = pairs.lookup text := by
  induction pairs generalizing ids with
  | nil =>
      cases h
      rfl
  | cons pair pairs ih =>
      obtain ⟨name, value⟩ := pair
      cases h with
      | @cons id _ ids _ hkind hrest =>
          have hnamed : doc.attributeNamed? (.ofLexical text) id =
              if name = text then some value else none := by
            simp only [attributeNamed?, hkind, QName.denotesSame_ofLexical_iff]
          rw [List.findSome?_cons, hnamed, ih hrest, List.lookup_cons]
          by_cases hname : name = text
          · subst hname
            simp
          · rw [if_neg hname, beq_eq_false_iff_ne.mpr (Ne.symm hname)]

theorem attribute?_of_bears (h : doc.Bears element (lexicalAttributes pairs)) (text : String) :
    doc.attribute? element text = pairs.lookup text :=
  findSome?_attributeNamed?_eq_lookup h text

/-! ## Creation -/

/-- What an element bears is read off the payloads of nodes. -/
theorem bears_congr {doc' : Document} {attributes : List (QName × String)}
    (h : ∀ id, doc'.kind? id = doc.kind? id) :
    doc'.Bears element attributes ↔ doc.Bears element attributes := by
  simp only [Bears, Document.attributes, h]

/-- A new element bears the attributes that it is created with. -/
theorem bears_grow_next (doc : Document) (name : QName) (attributes : List (QName × String)) :
    (doc.grow (.element name (doc.nextHandles attributes.length)) attributes).Bears doc.next
      attributes := by
  unfold Bears
  rw [attributes_grow_next]
  refine List.forall₂_iff_get.mpr ⟨by simp [NodeKind.attributes, nextHandles], ?_⟩
  intro i hi hi'
  have hhandle : (doc.nextHandles attributes.length).get ⟨i, hi⟩ = ⟨doc.size + 1 + i⟩ := by
    simp [nextHandles]
  show kind? _ ((doc.nextHandles attributes.length).get ⟨i, hi⟩) = _
  rw [hhandle, kind?, node?_grow_attribute _ _ _ hi']
  rfl

/-- A command that makes an element, unless it is refused, answers with the next handle and has the
element created there. -/
theorem WellFormed.grown_of_makesElement (wf : doc.WellFormed) {name : QName} {command : Command}
    {attributes : List (QName × String)} (hcommand : command.MakesElement name attributes)
    (h : (doc.perform command).2 = .ok (.node element)) :
    element = doc.next ∧ doc.grown command =
      doc.grow (.element name (doc.nextHandles attributes.length)) attributes := by
  cases hcommand with
  | alone => exact ⟨(Outcome.node.inj (Except.ok.inj h)).symm, grown_of_some rfl⟩
  | inBranch branch =>
      have heffect := wf.edit_effect branch (.addElement name attributes)
      have hperform : (doc.edit branch (.addElement name attributes)).2 = .ok (.node element) := h
      generalize doc.edit branch (.addElement name attributes) = result at heffect hperform
      -- of the outcomes of an edit, only to append a new child is to answer with its handle
      cases heffect with
      | refused => cases hperform
      | absent => cases hperform
      | relinked found idle => cases idle
      | unused => cases hperform
      | appended made sprout isBranch =>
          refine ⟨(Outcome.node.inj (Except.ok.inj hperform)).symm, grown_of_some ?_⟩
          rw [commandCreates_edit isBranch]
          rfl

/-- The element that a command answers with bears the attributes of the command. -/
theorem WellFormed.bears_perform (wf : doc.WellFormed) {name : QName} {command : Command}
    {attributes : List (QName × String)} (hcommand : command.MakesElement name attributes)
    (h : (doc.perform command).2 = .ok (.node element)) :
    element ∈ (doc.perform command).1 ∧ (doc.perform command).1.Bears element attributes := by
  obtain ⟨rfl, hgrown⟩ := wf.grown_of_makesElement hcommand h
  have hkinds := wf.kind?_perform_eq_grown command
  rw [hgrown] at hkinds
  refine ⟨mem_of_kind? ((hkinds _).trans (doc.kind?_grow_next _ _)), ?_⟩
  exact (bears_congr hkinds).mpr (doc.bears_grow_next name attributes)

/-! ## Runs -/

/-- An element bears the same attributes after every run. -/
theorem WellFormed.bears_run (wf : doc.WellFormed) {attributes : List (QName × String)}
    (hmem : element ∈ doc) (h : doc.Bears element attributes) (commands : List Command) :
    (doc.run commands).Bears element attributes := by
  have hlisted : (doc.run commands).attributes element = doc.attributes element := by
    unfold Document.attributes
    rw [wf.kind?_run hmem]
  unfold Bears
  rw [hlisted]
  refine List.Forall₂.imp (fun id pair hkind => ?_) h
  rw [wf.kind?_run (mem_of_kind? hkind), hkind]

/-- An element that is created with attributes of written names answers to these names for good:
whatever is done later, the lookup of a text gives the value of the first pair with this text, and
nothing if there is none. That no two texts are confused holds of names at large: they denote the
same thing only if they are read from the same text, which is the name as it is written. -/
theorem Reachable.attribute?_created (reachable : doc.Reachable) (name : QName)
    (pairs : List (String × String)) :
    (∃ element,
      (doc.perform (.createElement name (lexicalAttributes pairs))).2 = .ok (.node element)) ∧
    (∀ command element, command.MakesElement name (lexicalAttributes pairs) →
      (doc.perform command).2 = .ok (.node element) → ∀ later text,
        ((doc.perform command).1.run later).attribute? element text = pairs.lookup text) ∧
    (∀ s t, (QName.ofLexical s).denotesSame (.ofLexical t) = true ↔ s = t) ∧
    ∀ s, (QName.ofLexical s).lexical = s := by
  refine ⟨⟨doc.next, rfl⟩, ?_, fun s t => QName.denotesSame_ofLexical_iff,
    QName.lexical_ofLexical⟩
  intro command element hcommand hanswer later text
  have wf := reachable.wellFormed
  obtain ⟨hmem, hbears⟩ := wf.bears_perform hcommand hanswer
  exact attribute?_of_bears ((wf.perform command).bears_run hmem hbears later) text

/-- Three names with one local part, one of them given twice, are told apart; and so they are
after the element has taken an attribute for a child and has been cleared. -/
theorem attribute?_created_colons :
    let doc := empty.run [.createElement (.plain "e") []]
    let pairs := [("lang", "a"), ("xml:lang", "b"), (":lang", "c"), ("lang", "d")]
    let command : Command := .edit ⟨1⟩ (.addElement (.plain "f") (lexicalAttributes pairs))
    let later : List Command := [.edit ⟨2⟩ (.setContent [⟨4⟩]), .edit ⟨2⟩ .clear]
    let after := (doc.perform command).1.run later
    doc.Reachable ∧ command.MakesElement (.plain "f") (lexicalAttributes pairs) ∧
      (doc.perform command).2 = .ok (.node ⟨2⟩) ∧
      after.attribute? ⟨2⟩ "lang" = some "a" ∧ after.attribute? ⟨2⟩ "xml:lang" = some "b" ∧
      after.attribute? ⟨2⟩ ":lang" = some "c" ∧ after.attribute? ⟨2⟩ "xml:" = none := by
  intro doc pairs command later after
  have reachable : doc.Reachable := ⟨_, rfl⟩
  have hcommand : command.MakesElement (.plain "f") (lexicalAttributes pairs) := .inBranch ⟨1⟩
  have hanswer : (doc.perform command).2 = .ok (.node ⟨2⟩) := by decide
  have hlookup := (reachable.attribute?_created (.plain "f") pairs).2.1 command ⟨2⟩ hcommand
    hanswer later
  exact ⟨reachable, hcommand, hanswer, hlookup "lang", hlookup "xml:lang", hlookup ":lang",
    hlookup "xml:"⟩

end Document

end XPathTree
