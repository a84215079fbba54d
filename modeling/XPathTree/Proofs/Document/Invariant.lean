import XPathTree.Proofs.Document.Effect
import XPathTree.Proofs.Document.History

/-!
# Every reachable document is well-formed

A command works in two phases. First it may create nodes (`grown`); then it may give
one branch an admissible content. `perform_cases` reads this off `Effect`, and since
both phases keep a document well-formed, so do whole runs.
-/

namespace XPathTree.Document

/-- The kind of the node that a command creates, with the attributes of that node. -/
def commandCreates (doc : Document) : Command → Option (NodeKind × List (QName × String))
  | .createElement name attributes => doc.creates (.addElement name attributes)
  | .createText content => doc.creates (.addText content)
  | .createComment content => doc.creates (.addComment content)
  | .createInstruction target data => doc.creates (.addInstruction target data)
  | .edit branch change => if doc.IsBranch branch then doc.creates change else none

/-- The document after the nodes that a command creates, before any link is made. -/
def grown (doc : Document) (command : Command) : Document :=
  match doc.commandCreates command with
  | some (kind, attributes) => doc.grow kind attributes
  | none => doc

variable {doc : Document} {branch id : NodeId}

theorem grown_of_none {command : Command} (h : doc.commandCreates command = none) :
    doc.grown command = doc := by
  unfold grown
  rw [h]

theorem grown_of_some {command : Command} {kind : NodeKind} {attributes : List (QName × String)}
    (h : doc.commandCreates command = some (kind, attributes)) :
    doc.grown command = doc.grow kind attributes := by
  unfold grown
  rw [h]

theorem commandCreates_edit (hbranch : doc.IsBranch branch) (change : Edit) :
    doc.commandCreates (.edit branch change) = doc.creates change :=
  if_pos hbranch

theorem commandCreates_edit_of_idle {change : Edit}
    (idle : doc.IsBranch branch → doc.creates change = none) :
    doc.commandCreates (.edit branch change) = none := by
  by_cases hbranch : doc.IsBranch branch
  · rw [commandCreates_edit hbranch]
    exact idle hbranch
  · exact if_neg hbranch

/-- The nodes that a command creates come with the attributes their kind lists. -/
theorem sprout_of_commandCreates {command : Command} {kind : NodeKind}
    {attributes : List (QName × String)}
    (h : doc.commandCreates command = some (kind, attributes)) : doc.Sprout kind attributes := by
  have hedit : ∀ change, doc.creates change = some (kind, attributes) →
      doc.Sprout kind attributes := by
    intro change h
    cases change with
    | addElement name list =>
        obtain ⟨rfl, rfl⟩ := Prod.mk.inj (Option.some.inj h)
        exact doc.sprout_element name _
    | addText content =>
        obtain ⟨rfl, rfl⟩ := Prod.mk.inj (Option.some.inj h)
        exact sprout_leaf (.inl rfl)
    | addComment content =>
        obtain ⟨rfl, rfl⟩ := Prod.mk.inj (Option.some.inj h)
        exact sprout_leaf (.inr (.inl rfl))
    | addInstruction target data =>
        obtain ⟨rfl, rfl⟩ := Prod.mk.inj (Option.some.inj h)
        exact sprout_leaf (.inr (.inr rfl))
    | _ => cases h
  cases command with
  | createElement name list => exact hedit (.addElement name list) h
  | createText content => exact hedit (.addText content) h
  | createComment content => exact hedit (.addComment content) h
  | createInstruction target data => exact hedit (.addInstruction target data) h
  | edit branch change =>
      by_cases hbranch : doc.IsBranch branch
      · rw [commandCreates_edit hbranch] at h
        exact hedit change h
      · rw [commandCreates_edit_of_idle fun hb => absurd hb hbranch] at h
        cases h

/-- A command creates nothing, or a node with the attributes its kind lists. -/
theorem grown_cases {P : Document → Prop} (idle : P doc)
    (made : ∀ {kind attributes}, doc.Sprout kind attributes → P (doc.grow kind attributes))
    (command : Command) : P (doc.grown command) := by
  cases h : doc.commandCreates command with
  | none =>
      rw [grown_of_none h]
      exact idle
  | some created =>
      rw [grown_of_some h]
      exact made (sprout_of_commandCreates h)

theorem WellFormed.grown (wf : doc.WellFormed) (command : Command) :
    (doc.grown command).WellFormed :=
  grown_cases wf (fun sprout => sprout.wellFormed wf) command

/-- Without an edit nothing happens beyond creating nodes. -/
theorem perform_eq_grown {command : Command} (h : command.branch? = none) :
    (doc.perform command).1 = doc.grown command := by
  cases command with
  | createElement name attributes => rfl
  | createText content => rw [grown_of_some rfl, perform, create_eq_grow]; rfl
  | createComment content => rw [grown_of_some rfl, perform, create_eq_grow]; rfl
  | createInstruction target data => rw [grown_of_some rfl, perform, create_eq_grow]; rfl
  | edit branch change => cases h

/-- A new content that a command may give to a branch. -/
structure Relinks (doc : Document) (command : Command) (branch : NodeId)
    (content : List NodeId) : Prop where
  admissible : (doc.grown command).Admissible branch content
  origin : command = .edit branch (.setContent content) ∨
    (doc.grown command).TakesNoAttribute branch content
  result : (doc.perform command).1 = (doc.grown command).relink branch content
  succeeds : ∃ outcome, (doc.perform command).2 = .ok outcome

/-- A command creates nodes, and beyond that at most gives one branch a new content. -/
theorem WellFormed.perform_cases (wf : doc.WellFormed) (command : Command) :
    (doc.perform command).1 = doc.grown command ∨
      ∃ branch content, doc.Relinks command branch content := by
  cases command with
  | createElement | createText | createComment | createInstruction =>
      exact .inl (perform_eq_grown rfl)
  | edit branch change =>
      -- the cases of `Effect`, with the result kept as a variable so that they apply
      have heffect := wf.edit_effect branch change
      have hperform : doc.perform (.edit branch change) = doc.edit branch change := rfl
      generalize doc.edit branch change = result at heffect hperform
      cases heffect with
      | refused refusal idle =>
          left
          rw [hperform, grown_of_none (commandCreates_edit_of_idle idle)]
      | absent idle =>
          left
          rw [hperform, grown_of_none (commandCreates_edit_of_idle fun _ => idle)]
      | @relinked content outcome _ idle ad origin =>
          have hgrown : doc.grown (.edit branch change) = doc :=
            grown_of_none (commandCreates_edit_of_idle fun _ => idle)
          refine .inr ⟨branch, content, ?_, ?_, ?_, outcome, by rw [hperform]⟩
          · rw [hgrown]
            exact ad
          · rw [hgrown]
            exact origin.imp_left (congrArg (Command.edit branch))
          · rw [hperform, hgrown]
      | unused refusal made sprout isBranch =>
          left
          rw [hperform, grown_of_some ((commandCreates_edit isBranch change).trans made)]
      | @appended kind attributes made sprout isBranch ad =>
          have hgrown := grown_of_some ((commandCreates_edit isBranch change).trans made)
          refine .inr ⟨branch, doc.children branch ++ [doc.next], ?_, ?_, ?_, _, by rw [hperform]⟩
          · rw [hgrown]
            exact ad
          · rw [hgrown]
            right
            intro id hid hattribute
            rw [children_grow]
            rcases List.mem_append.mp hid with hid | hid
            · exact hid
            · rw [List.mem_singleton.mp hid, nodeType?_grow_next] at hattribute
              exact absurd (Option.some.inj hattribute) sprout.not_attribute
          · rw [hperform, hgrown]

/-- One command keeps a document well-formed. -/
theorem WellFormed.perform (wf : doc.WellFormed) (command : Command) :
    (doc.perform command).1.WellFormed := by
  rcases wf.perform_cases command with h | ⟨branch, content, h⟩
  · rw [h]
    exact wf.grown command
  · rw [h.result]
    exact h.admissible.wellFormed (wf.grown command)

theorem WellFormed.run (wf : doc.WellFormed) (commands : List Command) :
    (doc.run commands).WellFormed := by
  induction commands generalizing doc with
  | nil => exact wf
  | cons command rest ih => exact ih (wf.perform command)

theorem Reachable.wellFormed (h : doc.Reachable) : doc.WellFormed := by
  obtain ⟨commands, rfl⟩ := h
  exact wellFormed_empty.run commands

/-- A child stands at one place, and its place finds it. -/
theorem WellFormed.childAt_eq_ok_iff (wf : doc.WellFormed) {index : Nat} :
    doc.childAt branch index = .ok id ↔ doc.indexOf? branch id = some index := by
  constructor
  · intro h
    obtain ⟨hlt, rfl⟩ := List.getElem?_eq_some_iff.mp (getElem?_of_childAt h)
    exact idxOf?_getElem (wf.children_nodup branch) hlt
  · intro h
    have hget := getElem?_of_indexOf? h
    unfold childAt
    rw [hget]

/-- After any run the links agree, and places and children of a branch determine
each other. -/
theorem run_links_agree (commands : List Command) :
    (empty.run commands).WellFormed ∧
      ∀ branch index id, (empty.run commands).childAt branch index = .ok id ↔
        (empty.run commands).indexOf? branch id = some index := by
  have wf := wellFormed_empty.run commands
  exact ⟨wf, fun branch index id => wf.childAt_eq_ok_iff⟩

end XPathTree.Document
