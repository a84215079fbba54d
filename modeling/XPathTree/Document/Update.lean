import XPathTree.Document.Basic
import XPathTree.TreeError

/-!
# Updates

A change of a document reads, checks and writes it step by step. A refusal ends the
change at the step that meets it. Nothing is rolled back then: what was written before
stays written, so that only the order of the steps decides whether a refused change
leaves the document as it was.
-/

namespace XPathTree

/-- A change of a document that may be refused on its way. -/
abbrev Update := EStateM TreeError Document

/-- Puts a question to the document; its refusal ends the update. -/
def Update.check {α : Type} (test : Document → Except TreeError α) : Update α := do
  MonadExcept.ofExcept (test (← get))

/-- Changes the document, whatever it is. -/
def Update.write (change : Document → Document) : Update Unit := modify change

namespace Document

variable {α β : Type}

/-- The document after an update, and what came of it. -/
def apply (doc : Document) (update : Update α) : Document × Except TreeError α :=
  match update.run doc with
  | .ok answer after => (after, .ok answer)
  | .error refusal after => (after, .error refusal)

/-- A check reads the document and leaves it as it is. -/
theorem apply_check (doc : Document) (test : Document → Except TreeError α) :
    doc.apply (Update.check test) = (doc, test doc) := by
  show (match (MonadExcept.ofExcept (test doc) : Update α).run doc with
    | .ok answer after => (after, .ok answer)
    | .error refusal after => (after, .error refusal)) = (doc, test doc)
  cases test doc with
  | ok answer => rfl
  | error refusal => rfl

theorem apply_get_bind (doc : Document) (next : Document → Update α) :
    doc.apply (get >>= next) = doc.apply (next doc) :=
  rfl

/-- The next update starts where the one before it ended, unless that was refused. -/
theorem apply_bind (doc : Document) (update : Update α) (next : α → Update β) :
    doc.apply (update >>= next) =
      match doc.apply update with
      | (after, .ok answer) => after.apply (next answer)
      | (after, .error refusal) => (after, .error refusal) := by
  unfold apply
  rw [EStateM.run_bind]
  cases update.run doc with
  | ok answer after => rfl
  | error refusal after => rfl

/-- What an update answers may be put in other words. -/
theorem apply_bind_pure (doc : Document) (update : Update α) (wording : α → β) :
    doc.apply (update >>= fun answer => pure (wording answer)) =
      ((doc.apply update).1, (doc.apply update).2.map wording) := by
  rw [apply_bind]
  cases doc.apply update with
  | mk after result =>
    cases result with
    | ok answer => rfl
    | error refusal => rfl

theorem apply_check_bind (doc : Document) (test : Document → Except TreeError α)
    (next : α → Update β) :
    doc.apply (Update.check test >>= next) =
      match test doc with
      | .ok answer => doc.apply (next answer)
      | .error refusal => (doc, .error refusal) := by
  rw [apply_bind, apply_check]
  cases test doc with
  | ok answer => rfl
  | error refusal => rfl

end Document

end XPathTree
