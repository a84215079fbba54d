import XPathTree.Proofs.Value.Comparison

/-!
# Comparisons from either side

Two comparisons are converse when one says of two values what the other says of them in the other
order. Strings, numbers and booleans are compared as texts, as truth values or as numbers, and
there the order of the sides can be seen to make no difference. Node-sets add nothing: on either
side they count by their nodes, so that comparisons which are converse on the other three types
are converse on all values (`GoesByNodes.converse`).
-/

namespace XPathTree

namespace Document

variable {doc : Document} {compare compare' : Value → Value → Bool}

/-- Of values that are no node-sets, the first comparison says what the second says of them in
the other order. -/
def ConverseOnPlain (compare compare' : Value → Value → Bool) : Prop :=
  ∀ x y : Value, x.type ≠ .nodes → y.type ≠ .nodes → compare x y = compare' y x

/-- A node-set on the left counts as it does on the right. -/
theorem GoesByNodes.converse_nodes (goes : doc.GoesByNodes compare)
    (goes' : doc.GoesByNodes compare') (plain : ConverseOnPlain compare compare') (a : NodeSet)
    (y : Value) : compare (.nodes a) y = compare' y (.nodes a) := by
  have htexts : ∀ text y, y.type ≠ .nodes →
      compare (.string text) y = compare' y (.string text) :=
    fun text y => plain (.string text) y ValueType.noConfusion
  cases y with
  | nodes b =>
      have hpair : ∀ text text', compare (.string text) (.string text') =
          compare' (.string text') (.string text) := fun _ _ => htexts _ _ ValueType.noConfusion
      rw [Bool.eq_iff_iff, goes.nodes_nodes, goes'.nodes_nodes]
      simp only [hpair]
      constructor
      · rintro ⟨x, hx, y, hy, h⟩
        exact ⟨y, hy, x, hx, h⟩
      · rintro ⟨y, hy, x, hx, h⟩
        exact ⟨x, hx, y, hy, h⟩
  | string text =>
      rw [Bool.eq_iff_iff, goes.nodes_string, goes'.string_nodes]
      exact exists_congr fun x => and_congr_right fun _ => by
        rw [htexts _ _ ValueType.noConfusion]
  | number number =>
      rw [Bool.eq_iff_iff, goes.nodes_number, goes'.number_nodes]
      exact exists_congr fun x => and_congr_right fun _ => by
        rw [htexts _ _ ValueType.noConfusion]
  | boolean answer =>
      rw [goes.nodes_boolean, goes'.boolean_nodes]
      exact plain _ _ ValueType.noConfusion ValueType.noConfusion

/-- Comparisons that are converse where no node-set is involved are converse. -/
theorem GoesByNodes.converse (goes : doc.GoesByNodes compare) (goes' : doc.GoesByNodes compare')
    (plain : ConverseOnPlain compare compare') (x y : Value) : compare x y = compare' y x := by
  by_cases hx : x.type = .nodes
  · cases x with
    | nodes a => exact goes.converse_nodes goes' plain a y
    | string | number | boolean => cases hx
  by_cases hy : y.type = .nodes
  · cases y with
    | nodes b =>
        have plain' : ConverseOnPlain compare' compare := fun x y hx hy => (plain y x hy hx).symm
        exact (goes'.converse_nodes goes plain' b x).symm
    | string | number | boolean => cases hy
  · exact plain x y hx hy

/-! ## The three comparisons -/

theorem converseOnPlain_equal (doc : Document) :
    ConverseOnPlain (Value.equal doc) (Value.equal doc) := by
  intro x y hx hy
  cases x with
  | nodes => exact absurd rfl hx
  | string | number | boolean =>
      cases y with
      | nodes => exact absurd rfl hy
      | string | number | boolean =>
          simp only [Value.equal, Value.toBool, Value.toNumber, Double.equals_comm, BEq.comm]

/-- Where no node-set is involved, to differ is not to be equal. -/
theorem unequal_eq_not_equal (doc : Document) {x y : Value} (hx : x.type ≠ .nodes)
    (hy : y.type ≠ .nodes) : Value.unequal doc x y = !Value.equal doc x y := by
  cases x with
  | nodes => exact absurd rfl hx
  | string | number | boolean =>
      cases y with
      | nodes => exact absurd rfl hy
      | string | number | boolean => rfl

theorem converseOnPlain_unequal (doc : Document) :
    ConverseOnPlain (Value.unequal doc) (Value.unequal doc) := by
  intro x y hx hy
  rw [unequal_eq_not_equal doc hx hy, unequal_eq_not_equal doc hy hx,
    converseOnPlain_equal doc x y hx hy]

/-- Where no node-set is involved, both sides are related as numbers. -/
theorem related_eq (doc : Document) (relation : Double → Double → Bool) {x y : Value}
    (hx : x.type ≠ .nodes) (hy : y.type ≠ .nodes) :
    Value.related relation doc x y = relation (x.toNumber doc) (y.toNumber doc) := by
  cases x with
  | nodes => exact absurd rfl hx
  | string | number | boolean =>
      cases y with
      | nodes => exact absurd rfl hy
      | string | number | boolean => rfl

theorem converseOnPlain_related (doc : Document) {relation relation' : Double → Double → Bool}
    (h : ∀ a b, relation a b = relation' b a) :
    ConverseOnPlain (Value.related relation doc) (Value.related relation' doc) := by
  intro x y hx hy
  rw [related_eq doc relation hx hy, related_eq doc relation' hy hx, h]

end Document

/-! ## Operators -/

namespace BinaryOp

/-- The operator that compares two values as another one compares them in the other order. -/
def converse : BinaryOp → BinaryOp
  | .less => .greater
  | .lessOrEqual => .greaterOrEqual
  | .greater => .less
  | .greaterOrEqual => .lessOrEqual
  | op => op

variable {op : BinaryOp}

theorem relation_converse (op : BinaryOp) (a b : Double) :
    op.relation a b = op.converse.relation b a := by
  cases op <;> rfl

/-- With the sides exchanged and the operator turned around, a comparison gives the same boolean:
`=` and `!=` stay, `<` becomes `>` and `<=` becomes `>=`. Where no node-set is involved, `=` and
`!=` give opposite booleans. -/
theorem comparison_converse (doc : Document) (x y : Value) :
    (∀ op : BinaryOp, op.isComparison = true → ∃ answer,
      op.apply doc x y = .ok (.boolean answer) ∧
        op.converse.apply doc y x = .ok (.boolean answer)) ∧
    (x.type ≠ .nodes → y.type ≠ .nodes → ∃ answer,
      apply .equal doc x y = .ok (.boolean answer) ∧
        apply .unequal doc x y = .ok (.boolean !answer)) := by
  constructor
  · intro op hop
    -- the two sides are answers of one comparison and its converse
    have hrelated : ∀ op : BinaryOp, Value.related op.relation doc x y =
        Value.related op.converse.relation doc y x := by
      intro op
      exact (doc.goesByNodes_related _).converse (doc.goesByNodes_related _)
        (doc.converseOnPlain_related op.relation_converse) x y
    cases op with
    | equal =>
        have hequal := doc.goesByNodes_equal.converse doc.goesByNodes_equal
          doc.converseOnPlain_equal x y
        exact ⟨Value.equal doc x y, rfl, by rw [hequal]; rfl⟩
    | unequal =>
        have hunequal := doc.goesByNodes_unequal.converse doc.goesByNodes_unequal
          doc.converseOnPlain_unequal x y
        exact ⟨Value.unequal doc x y, rfl, by rw [hunequal]; rfl⟩
    | less => exact ⟨_, rfl, by rw [hrelated]; rfl⟩
    | lessOrEqual => exact ⟨_, rfl, by rw [hrelated]; rfl⟩
    | greater => exact ⟨_, rfl, by rw [hrelated]; rfl⟩
    | greaterOrEqual => exact ⟨_, rfl, by rw [hrelated]; rfl⟩
    | _ => cases hop
  · intro hx hy
    refine ⟨Value.equal doc x y, rfl, ?_⟩
    rw [apply, doc.unequal_eq_not_equal hx hy]

/-- Of two texts only one is a number, and it is less than 2. A NaN differs from what is no
number. -/
theorem comparison_converse_nan :
    let commands : List Command := [.createElement (.plain "e") [],
      .edit ⟨1⟩ (.addText "1"), .edit ⟨1⟩ (.addText "b")]
    let doc := Document.empty.run commands
    let texts : Value := .nodes ⟨[⟨2⟩, ⟨3⟩]⟩
    let two : Value := .number (.ofNat 2)
    isComparison .less = true ∧ apply .less doc texts two = .ok (.boolean true) ∧
      apply .greater doc two texts = .ok (.boolean true) ∧
      (Value.number .nan).type ≠ .nodes ∧ (Value.string "b").type ≠ .nodes ∧
      apply .equal doc (.number .nan) (.string "b") = .ok (.boolean false) ∧
      apply .unequal doc (.number .nan) (.string "b") = .ok (.boolean true) := by
  intro commands doc texts two
  have hnumber : (Value.number .nan).type ≠ .nodes := ValueType.noConfusion
  have hstring : (Value.string "b").type ≠ .nodes := ValueType.noConfusion
  have hless : apply .less doc texts two = .ok (.boolean true) := by decide +kernel
  have hequal : apply .equal doc (.number .nan) (.string "b") = .ok (.boolean false) := by
    decide +kernel
  obtain ⟨answer, hanswer, hgreater⟩ := (comparison_converse doc texts two).1 .less rfl
  obtain ⟨answer', hanswer', hunequal⟩ :=
    (comparison_converse doc (.number .nan) (.string "b")).2 hnumber hstring
  obtain rfl : true = answer := Value.boolean.inj (Except.ok.inj (hless.symm.trans hanswer))
  obtain rfl : false = answer' := Value.boolean.inj (Except.ok.inj (hequal.symm.trans hanswer'))
  exact ⟨rfl, hless, hgreater, hnumber, hstring, hequal, hunequal⟩

end BinaryOp

end XPathTree
