import XPathTree.Proofs.Axis.Subtree
import XPathTree.Proofs.Library.CoreFunction
import XPathTree.Proofs.Text.Token
import XPathTree.Proofs.Value.NodeSet

/-!
# Elements by identifier

An element carries the identifier that its first attribute `id` has as its value, and the one of
its first attribute `xml:id`; a value lists the tokens of its text, or of the string-values of all
its nodes. What `id` selects are the elements in the tree of the context node that carry an
identifier the value lists (`mem_select_iff`). What a value lists is all that it contributes, and so
a value that lists the identifiers of several others selects the union of what these select.
-/

namespace XPathTree

/-! ## Names -/

namespace QName

theorem denotesSame_plain_iff {name : QName} {localPart : String} :
    name.denotesSame (.plain localPart) = true ↔ name = .plain localPart := by
  obtain ⟨nsPrefix, found, uri⟩ := name
  cases uri <;> simp [denotesSame, plain, and_comm]

theorem denotesSame_uri_iff {name wanted : QName} {uri : String} (h : wanted.uri = some uri) :
    name.denotesSame wanted = true ↔ name.localPart = wanted.localPart ∧ name.uri = some uri := by
  obtain ⟨nsPrefix, found, uri'⟩ := name
  cases uri' <;> simp [denotesSame, h]

end QName

namespace Document

variable {doc : Document} {id element : NodeId} {value identifier : String} {wanted : QName → Prop}

/-! ## Identifiers of elements -/

/-- The value of the first attribute of the element with a name as wanted. -/
inductive FirstNamed (doc : Document) (wanted : QName → Prop) (element : NodeId)
    (value : String) : Prop
  | intro {before behind : List NodeId} {first : NodeId} {name : QName}
      (hattributes : doc.attributes element = before ++ first :: behind)
      (hfirst : doc.kind? first = some (.attribute name value)) (hname : wanted name)
      (hbefore : ∀ other ∈ before, ∀ name, doc.name? other = some name → ¬ wanted name)

/-- The identifier is the value of the element's first attribute `id`, a name without prefix and
namespace, or of its first attribute `xml:id`, with whatever prefix that namespace has. -/
def Carries (doc : Document) (element : NodeId) (identifier : String) : Prop :=
  doc.FirstNamed (· = .plain "id") element identifier ∨
    doc.FirstNamed (fun name => name.localPart = "id" ∧ name.uri = some xmlNamespace) element
      identifier

theorem attributeNamed?_eq_some_iff {name : QName} :
    doc.attributeNamed? name id = some value ↔
      ∃ found, doc.kind? id = some (.attribute found value) ∧ found.denotesSame name = true := by
  unfold attributeNamed?
  split
  · next found value' hkind =>
      simp only [hkind, Option.ite_none_right_eq_some, Option.some.injEq, NodeKind.attribute.injEq]
      constructor
      · rintro ⟨hsame, rfl⟩
        exact ⟨found, ⟨rfl, rfl⟩, hsame⟩
      · rintro ⟨_, ⟨rfl, rfl⟩, hsame⟩
        exact ⟨hsame, rfl⟩
  · next hother =>
      refine iff_of_false (Option.some_ne_none value).symm ?_
      rintro ⟨found, hkind, _⟩
      exact hother found value hkind

/-- An attribute is passed over exactly if it has another name. -/
theorem attributeNamed?_eq_none_iff {name : QName} (h : doc.nodeType? id = some .attribute) :
    doc.attributeNamed? name id = none ↔
      ∀ found, doc.name? id = some found → ¬ found.denotesSame name = true := by
  obtain ⟨kind, hkind, htype⟩ := Option.map_eq_some_iff.mp h
  cases kind with
  | «attribute» found value =>
      simp [attributeNamed?, name?, hkind, NodeKind.name?]
  | _ => cases htype

/-- The lookup of an attribute by its written name gives the value of the first one whose name
denotes the same. -/
theorem AttributesListed.attribute?_eq_some_iff (listed : doc.AttributesListed) {lexical : String}
    (hwanted : ∀ name, QName.denotesSame name (.ofLexical lexical) = true ↔ wanted name) :
    doc.attribute? element lexical = some value ↔ doc.FirstNamed wanted element value := by
  unfold attribute?
  rw [List.findSome?_eq_some_iff]
  have hbefore : ∀ {before behind first}, doc.attributes element = before ++ first :: behind →
      ((∀ other ∈ before, doc.attributeNamed? (.ofLexical lexical) other = none) ↔
        ∀ other ∈ before, ∀ name, doc.name? other = some name → ¬ wanted name) := by
    intro before behind first hattributes
    refine forall₂_congr fun other hother => ?_
    have hmem : other ∈ doc.attributes element := by
      rw [hattributes]
      exact List.mem_append_left _ hother
    rw [attributeNamed?_eq_none_iff (listed.type element other hmem)]
    simp only [hwanted]
  constructor
  · rintro ⟨before, first, behind, hattributes, hfirst, hpassed⟩
    obtain ⟨name, hkind, hname⟩ := attributeNamed?_eq_some_iff.mp hfirst
    exact .intro hattributes hkind ((hwanted name).mp hname) ((hbefore hattributes).mp hpassed)
  · rintro @⟨before, behind, first, name, hattributes, hkind, hname, hpassed⟩
    exact ⟨before, first, behind, hattributes,
      attributeNamed?_eq_some_iff.mpr ⟨name, hkind, (hwanted name).mpr hname⟩,
      (hbefore hattributes).mpr hpassed⟩

theorem AttributesListed.isIdentifiedBy_iff (listed : doc.AttributesListed)
    {identifiers : List String} :
    doc.isIdentifiedBy identifiers element = true ↔ doc.nodeType? element = some .element ∧
      ∃ identifier ∈ identifiers, doc.Carries element identifier := by
  have hid : ∀ name, QName.denotesSame name (.ofLexical "id") = true ↔ name = .plain "id" :=
    fun _ => QName.denotesSame_plain_iff
  have huri : (QName.ofLexical "xml:id").uri = some xmlNamespace := rfl
  have hxml : ∀ name, QName.denotesSame name (.ofLexical "xml:id") = true ↔
      name.localPart = "id" ∧ name.uri = some xmlNamespace :=
    fun _ => QName.denotesSame_uri_iff huri
  simp only [isIdentifiedBy, Carries, List.any_cons, List.any_nil, Bool.or_false, Bool.or_eq_true,
    Bool.and_eq_true, beq_iff_eq, Option.any_eq_true, List.contains_iff_mem,
    listed.attribute?_eq_some_iff hid, listed.attribute?_eq_some_iff hxml]
  refine and_congr_right fun _ => ?_
  rw [← exists_or]
  refine exists_congr fun identifier => ?_
  rw [← or_and_right, and_comm]

/-- Nothing is identified by no identifier. -/
theorem identified_nil (id : NodeId) : doc.identified [] id = [] := by
  unfold identified
  refine List.filter_eq_nil_iff.mpr fun element _ => ?_
  simp [isIdentifiedBy]

section Orderly

variable (orderly : doc.Orderly)
include orderly

/-- An attribute has an element above it, so that no tree has one as its root. -/
theorem Orderly.isContent_of_parent?_eq_none (h : doc.parent? id = none) : doc.IsContent id := by
  intro hattribute
  obtain ⟨element, hlisted⟩ := orderly.listed.owned id hattribute
  rw [orderly.apart.parent element id hlisted] at h
  cases h

/-- The elements that identifiers identify are those in the tree that carry one of them. -/
theorem Orderly.mem_identified_iff (hid : id ∈ doc) {identifiers : List String} :
    element ∈ doc.identified identifiers id ↔ doc.nodeType? element = some .element ∧
      doc.treeRoot element = doc.treeRoot id ∧
        ∃ identifier ∈ identifiers, doc.Carries element identifier := by
  have wf := orderly.wellFormed
  have hroot := orderly.isContent_of_parent?_eq_none (wf.parent?_treeRoot id)
  unfold identified
  rw [orderly.subtree_eq (wf.treeRoot_mem_iff.mpr hid) hroot, List.mem_filter,
    orderly.mem_contents_treeRoot_iff hid, orderly.listed.isIdentifiedBy_iff]
  constructor
  · rintro ⟨⟨_, htree, _⟩, htype, hcarries⟩
    exact ⟨htype, htree, hcarries⟩
  · rintro ⟨htype, htree, hcarries⟩
    exact ⟨⟨mem_of_nodeType? htype, htree, IsBranch.isContent (.inr htype)⟩, htype, hcarries⟩

end Orderly

end Document

/-! ## Unions of many sets -/

namespace NodeSet

variable {doc : Document} {id : NodeId} {sets : List NodeSet}

/-- The nodes of all sets. -/
def unionAll (doc : Document) (sets : List NodeSet) : NodeSet := sets.foldr (union doc) empty

variable (orderly : doc.Orderly)
include orderly

theorem mem_unionAll_iff : id ∈ (unionAll doc sets).nodes ↔ ∃ set ∈ sets, id ∈ set.nodes := by
  induction sets with
  | nil => simp [unionAll, empty]
  | cons set sets ih =>
      simp only [unionAll, List.foldr_cons] at ih ⊢
      simp only [mem_union_iff orderly, ih, List.mem_cons, exists_eq_or_imp]

theorem inOrder_unionAll (sets : List NodeSet) : (unionAll doc sets).InOrder doc := by
  cases sets with
  | nil => exact inOrder_empty
  | cons set sets => exact inOrder_union orderly set _

theorem unionAll_pair (a b : NodeSet) : unionAll doc [a, b] = a.union doc b := by
  refine (inOrder_unionAll orderly _).eq_of_mem_iff (inOrder_union orderly a b) fun id => ?_
  simp [mem_unionAll_iff orderly, mem_union_iff orderly]

end NodeSet

/-! ## Identifiers that values list -/

/-- The identifier is one of those in a text that spaces, tabs, line feeds, carriage returns and
form feeds keep apart. -/
def IdentifierIn (text identifier : String) : Prop :=
  Text.IsToken (· ∈ [' ', '\t', '\n', '\r', '\x0c']) text.toList identifier.toList

theorem identifierIn_iff {text identifier : String} :
    IdentifierIn text identifier ↔
      identifier.toList ∈ Text.tokens Text.isTokenBlank text.toList := by
  rw [IdentifierIn, ← Text.isTokenBlank_eq, Text.mem_tokens_iff]

/-- The identifier is one of those in the value's text, or in the string-value of one of its
nodes. -/
inductive Value.Lists (doc : Document) : Value → String → Prop
  | member {set : NodeSet} {node : NodeId} {identifier : String} (hnode : node ∈ set.nodes)
      (hidentifier : IdentifierIn (doc.stringValue node) identifier) :
      Lists doc (.nodes set) identifier
  | text {value : Value} {identifier : String} (htype : value.type ≠ .nodes)
      (hidentifier : IdentifierIn (value.toText doc) identifier) : Lists doc value identifier

namespace CoreFunction

variable {ctx : Context} {doc : Document} {value s t : Value} {set : NodeSet}
variable {identifier : String} {element : NodeId}

theorem mem_identifiers_iff :
    identifier ∈ identifiers doc value ↔
      IdentifierIn (identifierText doc value) identifier := by
  unfold identifiers
  rw [List.mem_map, identifierIn_iff]
  constructor
  · rintro ⟨token, htoken, rfl⟩
    rwa [String.toList_ofList]
  · exact fun h => ⟨_, h, String.ofList_toList⟩

theorem identifierText_eq (h : value.type ≠ .nodes) :
    identifierText doc value = value.toText doc := by
  cases value with
  | nodes set => exact absurd rfl h
  | string | number | boolean => rfl

/-- A node-set lists what its string-values list. -/
theorem mem_identifiers_nodes_iff :
    identifier ∈ identifiers doc (.nodes set) ↔
      ∃ text ∈ set.texts doc, identifier ∈ identifiers doc (.string text) := by
  have hblank : Text.isTokenBlank ' ' = true := by decide
  have htexts : (identifierText doc (.nodes set)).toList =
      [' '].intercalate ((set.texts doc).map String.toList) := String.toList_intercalate
  simp only [mem_identifiers_iff, identifierIn_iff, htexts,
    Text.mem_tokens_intercalate_iff hblank, List.mem_map, exists_exists_and_eq_and]
  rfl

/-- What stands in front of a blank and what stands behind it are listed together. -/
theorem mem_identifiers_spaced_iff (hs : s.type ≠ .nodes) (ht : t.type ≠ .nodes) :
    identifier ∈ identifiers doc (.string (s.toText doc ++ " " ++ t.toText doc)) ↔
      identifier ∈ identifiers doc s ∨ identifier ∈ identifiers doc t := by
  have hblank : Text.isTokenBlank ' ' = true := by decide
  have htext : (identifierText doc (.string (s.toText doc ++ " " ++ t.toText doc))).toList =
      (s.toText doc).toList ++ ' ' :: (t.toText doc).toList := by
    show (s.toText doc ++ " " ++ t.toText doc).toList = _
    rw [String.toList_append, String.toList_append, List.append_assoc]
    rfl
  simp only [mem_identifiers_iff, identifierIn_iff, htext, identifierText_eq hs,
    identifierText_eq ht, Text.tokens_append_cons hblank, List.mem_append]

theorem lists_iff : value.Lists doc identifier ↔ identifier ∈ identifiers doc value := by
  constructor
  · intro h
    cases h with
    | member hnode hidentifier =>
        exact mem_identifiers_nodes_iff.mpr
          ⟨_, List.mem_map_of_mem hnode, mem_identifiers_iff.mpr hidentifier⟩
    | text htype hidentifier =>
        rw [mem_identifiers_iff, identifierText_eq htype]
        exact hidentifier
  · intro h
    by_cases htype : value.type = .nodes
    · cases value with
      | nodes set =>
          obtain ⟨text, htext, hlisted⟩ := mem_identifiers_nodes_iff.mp h
          obtain ⟨node, hnode, rfl⟩ := List.mem_map.mp htext
          exact .member hnode (mem_identifiers_iff.mp hlisted)
      | string | number | boolean => cases htype
    · rw [mem_identifiers_iff, identifierText_eq htype] at h
      exact .text htype h

/-! ## What is selected -/

/-- No identifier at all is no case of its own: it identifies nothing. -/
theorem select_eq (ctx : Context) (value : Value) :
    select ctx value = .ofNodes ctx.document
      (ctx.document.identified (identifiers ctx.document value) ctx.node) := by
  simp only [select]
  split
  · next hnone =>
      rw [List.isEmpty_iff.mp hnone, Document.identified_nil]
      rfl
  · rfl

section Orderly

variable (orderly : ctx.document.Orderly)
include orderly

theorem inOrder_select (value : Value) : (select ctx value).InOrder ctx.document := by
  rw [select_eq]
  exact NodeSet.inOrder_ofNodes orderly _

variable (hnode : ctx.node ∈ ctx.document)
include hnode

theorem mem_select_iff :
    element ∈ (select ctx value).nodes ↔ ctx.document.nodeType? element = some .element ∧
      ctx.document.treeRoot element = ctx.document.treeRoot ctx.node ∧
        ∃ identifier ∈ identifiers ctx.document value,
          ctx.document.Carries element identifier := by
  rw [select_eq, NodeSet.mem_ofNodes_iff orderly, orderly.mem_identified_iff hnode]

/-- A value that lists what others list between them selects the union of what they select. -/
theorem select_eq_unionAll {values : List Value}
    (h : ∀ identifier, identifier ∈ identifiers ctx.document value ↔
      ∃ part ∈ values, identifier ∈ identifiers ctx.document part) :
    select ctx value = .unionAll ctx.document (values.map (select ctx)) := by
  refine (inOrder_select orderly value).eq_of_mem_iff
    (NodeSet.inOrder_unionAll orderly _) fun element => ?_
  rw [NodeSet.mem_unionAll_iff orderly, mem_select_iff orderly hnode]
  simp only [List.mem_map, exists_exists_and_eq_and, mem_select_iff orderly hnode, h]
  constructor
  · rintro ⟨htype, htree, identifier, ⟨part, hpart, hlisted⟩, hcarries⟩
    exact ⟨part, hpart, htype, htree, identifier, hlisted, hcarries⟩
  · rintro ⟨part, hpart, htype, htree, identifier, hlisted, hcarries⟩
    exact ⟨htype, htree, identifier, ⟨part, hpart, hlisted⟩, hcarries⟩

theorem select_nodes (set : NodeSet) :
    select ctx (.nodes set) = .unionAll ctx.document
      ((set.texts ctx.document).map fun text => select ctx (.string text)) := by
  have hlisted : ∀ identifier, identifier ∈ identifiers ctx.document (.nodes set) ↔
      ∃ part ∈ (set.texts ctx.document).map Value.string,
        identifier ∈ identifiers ctx.document part := by
    intro identifier
    simp only [mem_identifiers_nodes_iff, List.mem_map, exists_exists_and_eq_and]
  rw [select_eq_unionAll orderly hnode hlisted, List.map_map]
  rfl

theorem select_spaced (hs : s.type ≠ .nodes) (ht : t.type ≠ .nodes) :
    select ctx (.string (s.toText ctx.document ++ " " ++ t.toText ctx.document)) =
      (select ctx s).union ctx.document (select ctx t) := by
  have hlisted : ∀ identifier, identifier ∈ identifiers ctx.document
      (.string (s.toText ctx.document ++ " " ++ t.toText ctx.document)) ↔
        ∃ part ∈ [s, t], identifier ∈ identifiers ctx.document part := by
    intro identifier
    simp only [mem_identifiers_spaced_iff hs ht, List.mem_cons, List.not_mem_nil, or_false,
      exists_eq_or_imp, exists_eq_left]
  rw [select_eq_unionAll orderly hnode hlisted]
  exact NodeSet.unionAll_pair orderly _ _

end Orderly

end CoreFunction

namespace Library

open CoreFunction

variable {ctx : Context}

theorem call_concat_spaced (s t : Value) :
    core.call (.core "concat") ctx [s, .string " ", t] =
      .ok (.string (s.toText ctx.document ++ " " ++ t.toText ctx.document)) := by
  rw [call_concat, List.map_cons, List.map_cons, List.map_singleton, String.join_cons,
    String.join_cons, String.join_cons, String.join_nil, String.append_empty, String.append_assoc]
  rfl

/-- A call of `id` gives, in document order and each once, the elements in the tree of the context
node whose first attribute `id` or first attribute `xml:id` has a token as its value that the
argument lists. A node-set selects the union of what its string-values select, and two values that
are no node-sets select together what their concatenation with a space between them selects. -/
theorem call_id (careful : ctx.document.Careful) (hnode : ctx.node ∈ ctx.document) :
    (∀ value, core.call (.core "id") ctx [value] = .ok (.nodes (select ctx value))) ∧
    (∀ value,
      (select ctx value).nodes.Pairwise
        (fun x y => ctx.document.orderKey x < ctx.document.orderKey y) ∧
      (select ctx value).nodes.Nodup ∧
      ∀ element, element ∈ (select ctx value).nodes ↔
        ctx.document.nodeType? element = some .element ∧
          ctx.document.treeRoot element = ctx.document.treeRoot ctx.node ∧
            ∃ identifier, value.Lists ctx.document identifier ∧
              ctx.document.Carries element identifier) ∧
    (∀ set, select ctx (.nodes set) = .unionAll ctx.document
      ((set.texts ctx.document).map fun text => select ctx (.string text))) ∧
    ∀ s t : Value, s.type ≠ .nodes → t.type ≠ .nodes →
      ∃ text, core.call (.core "concat") ctx [s, .string " ", t] = .ok (.string text) ∧
        select ctx (.string text) = (select ctx s).union ctx.document (select ctx t) := by
  have orderly := careful.orderly
  refine ⟨fun value => ?_, fun value => ?_, fun set => ?_, fun s t hs ht => ?_⟩
  · exact call_core .id ctx [value]
  · have hinOrder := inOrder_select orderly value
    refine ⟨hinOrder, hinOrder.nodup, fun element => ?_⟩
    simp only [mem_select_iff orderly hnode, lists_iff]
  · exact select_nodes orderly hnode set
  · exact ⟨_, call_concat_spaced s t, select_spaced orderly hnode hs ht⟩

/-- An element with an `id` holds one with an `xml:id`, and a text that lists the latter. The
attribute `id` and the text together select both elements, also from another attribute. -/
theorem call_id_nested :
    let commands : List Command := [
      .createElement (.plain "e") [(.plain "class", "p2"), (.plain "id", "p1")],
      .edit ⟨1⟩ (.addElement (.plain "f") [(.ofLexical "xml:id", "p2")]),
      .edit ⟨1⟩ (.addText "q\tp2")]
    let doc := Document.empty.run commands
    let ctx := Context.ofNode doc ⟨2⟩
    doc.Careful ∧ ctx.node ∈ doc ∧
      core.call (.core "id") ctx [.nodes ⟨[⟨3⟩, ⟨6⟩]⟩] = .ok (.nodes ⟨[⟨1⟩, ⟨4⟩]⟩) ∧
      select ctx (.nodes ⟨[⟨3⟩, ⟨6⟩]⟩) =
        .unionAll doc [select ctx (.string "p1"), select ctx (.string "q\tp2")] ∧
      (⟨4⟩ : NodeId) ∈ (select ctx (.string "q\tp2")).nodes ∧
      ∃ text, core.call (.core "concat") ctx [.string "p1", .string " ", .string "p2"] =
          .ok (.string text) ∧
        select ctx (.string text) =
          (select ctx (.string "p1")).union doc (select ctx (.string "p2")) := by
  intro commands doc ctx
  have careful : ctx.document.Careful := ⟨commands, by decide, rfl⟩
  have hnode : ctx.node ∈ ctx.document := by decide
  obtain ⟨hcall, hfound, hset, hjoin⟩ := call_id careful hnode
  have hidentified : ctx.document.identified
      (identifiers ctx.document (.nodes ⟨[⟨3⟩, ⟨6⟩]⟩)) ctx.node = [⟨1⟩, ⟨4⟩] := by
    decide +kernel
  have hselect : select ctx (.nodes ⟨[⟨3⟩, ⟨6⟩]⟩) = ⟨[⟨1⟩, ⟨4⟩]⟩ := by
    rw [select_eq, hidentified]
    exact congrArg NodeSet.mk (careful.orderly.sort_eq_self (by decide))
  have hlists : (Value.string "q\tp2").Lists doc "p2" :=
    .text ValueType.noConfusion (identifierIn_iff.mpr (by decide))
  have hcarries : doc.Carries ⟨4⟩ "p2" := by
    refine .inr (@Document.FirstNamed.intro _ _ _ _ [] [] ⟨5⟩ (.ofLexical "xml:id") rfl rfl ?_ ?_)
    · exact ⟨rfl, rfl⟩
    · exact List.forall_mem_nil _
  refine ⟨careful, hnode, ?_, hset _, ?_, hjoin (.string "p1") (.string "p2") ?_ ?_⟩
  · rw [hcall, hselect]
  · exact ((hfound _).2.2 _).mpr ⟨by decide, by decide, "p2", hlists, hcarries⟩
  · exact ValueType.noConfusion
  · exact ValueType.noConfusion

end Library

end XPathTree
