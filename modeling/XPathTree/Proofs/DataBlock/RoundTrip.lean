import XPathTree.Proofs.DataBlock.Listing

/-!
# Pairs written and read back

A pair can be recovered from a block if its key is not empty and holds neither a blank nor an
equals sign, and if its value leaves one of the two quotes free. Nothing else can be read off a
block: the reader refuses keys of any other kind, and a value never holds the quote that ends it
(`recoverable_of_mem_readPairs`). In the other direction, recoverable pairs are read one by one
off what is written of them. Between two pairs the reader finds the space that parts them, and so
the induction over the pairs is on a block with a gap in front (`readPairs_writePairs`). Together:
however malformed a text is, the pairs read off it survive being written and read again.
-/

namespace XPathTree

namespace DataBlock

/-- What a pair must be like to be read back as it is. -/
structure Recoverable (pair : List Char × List Char) : Prop where
  key_ne_nil : pair.1 ≠ []
  not_blank : ∀ c ∈ pair.1, Text.isWhiteSpace c = false
  mark_not_mem : '=' ∉ pair.1
  quote_free : ¬ ('"' ∈ pair.2 ∧ '\x27' ∈ pair.2)

variable {pair : List Char × List Char} {pairs : List (List Char × List Char)}
variable {text rest gap : List Char}

/-! ## Quotes -/

theorem isQuote_quoteFor (value : List Char) : isQuote (quoteFor value) = true := by
  unfold quoteFor
  split
  · exact isQuote_iff.mpr (.inr rfl)
  · exact isQuote_iff.mpr (.inl rfl)

/-- A value is written with a quote that it does not hold, if there is one. -/
theorem quoteFor_not_mem {value : List Char} (h : ¬ ('"' ∈ value ∧ '\x27' ∈ value)) :
    quoteFor value ∉ value := by
  unfold quoteFor
  split
  · next hdouble => exact fun hsingle => h ⟨hdouble, hsingle⟩
  · next hdouble => exact hdouble

/-- Without one of the quotes, a value does not hold both. -/
theorem quote_free_of_not_mem {quote : Char} {value : List Char} (hquote : isQuote quote = true)
    (h : quote ∉ value) : ¬ ('"' ∈ value ∧ '\x27' ∈ value) := by
  rintro ⟨hdouble, hsingle⟩
  rcases isQuote_iff.mp hquote with rfl | rfl
  · exact h hdouble
  · exact h hsingle

/-! ## One pair -/

/-- A recoverable pair is read off the front of a block, behind a gap. -/
theorem readPair?_writePair (recoverable : Recoverable pair)
    (hgap : ∀ c ∈ gap, Text.isWhiteSpace c = true) :
    readPair? (gap ++ (writePair pair ++ rest)) = some (pair, rest) := by
  refine readPair?_eq_some_iff.mpr ?_
  refine .intro hgap (List.forall_mem_nil _) (List.forall_mem_nil _) recoverable.key_ne_nil
    recoverable.not_blank recoverable.mark_not_mem (isQuote_quoteFor pair.2)
    (quoteFor_not_mem recoverable.quote_free) ?_
  simp [writePair]

/-- Whatever is read off a block could be read back. -/
theorem recoverable_of_readPair? (h : readPair? text = some (pair, rest)) : Recoverable pair := by
  obtain ⟨_, _, _, hne, hblank, hmark, hquote, hfree, _⟩ := readPair?_eq_some_iff.mp h
  exact ⟨hne, hblank, hmark, quote_free_of_not_mem hquote hfree⟩

/-! ## All pairs -/

/-- Every pair that is read off a block is recoverable. -/
theorem recoverable_of_mem_readPairs (text : List Char) :
    ∀ pair ∈ readPairs text, Recoverable pair := by
  fun_induction readPairs text with
  | case1 => exact List.forall_mem_nil _
  | case2 text pair rest h ih =>
      exact List.forall_mem_cons.mpr ⟨recoverable_of_readPair? h, ih⟩

theorem readPair?_of_blank (hgap : ∀ c ∈ gap, Text.isWhiteSpace c = true) :
    readPair? gap = none := by
  have hmark : Text.splitAtFirst '=' gap = none :=
    Text.splitAtFirst_eq_none_iff.mpr (mark_not_mem_of_blank hgap)
  rw [readPair?, hmark]
  rfl

/-- What is written behind the first pair: a gap, and then the other pairs. -/
theorem exists_writePairs_cons (pair : List Char × List Char)
    (pairs : List (List Char × List Char)) :
    ∃ gap, (∀ c ∈ gap, Text.isWhiteSpace c = true) ∧
      writePairs (pair :: pairs) = writePair pair ++ (gap ++ writePairs pairs) := by
  unfold writePairs
  cases pairs with
  | nil => exact ⟨[], List.forall_mem_nil _, by simp⟩
  | cons next pairs =>
      refine ⟨[' '], List.forall_mem_singleton.mpr (by decide), ?_⟩
      rw [List.map_cons, List.map_cons, List.intercalate_cons_cons, List.append_assoc]

/-- Recoverable pairs are read back, behind a gap. -/
theorem readPairs_writePairs (recoverable : ∀ pair ∈ pairs, Recoverable pair)
    (hgap : ∀ c ∈ gap, Text.isWhiteSpace c = true) :
    readPairs (gap ++ writePairs pairs) = pairs := by
  induction pairs generalizing gap with
  | nil =>
      have hwritten : gap ++ writePairs [] = gap := List.append_nil gap
      rw [hwritten, readPairs_of_none (readPair?_of_blank hgap)]
  | cons pair pairs ih =>
      obtain ⟨hpair, hpairs⟩ := List.forall_mem_cons.mp recoverable
      obtain ⟨gap', hgap', hwritten⟩ := exists_writePairs_cons pair pairs
      rw [hwritten, readPairs_of_some (readPair?_writePair hpair hgap), ih hpairs hgap']

/-- Exactly the recoverable pairs are read back from what is written of them. -/
theorem readPairs_writePairs_iff :
    readPairs (writePairs pairs) = pairs ↔ ∀ pair ∈ pairs, Recoverable pair := by
  constructor
  · intro h
    rw [← h]
    exact recoverable_of_mem_readPairs _
  · exact fun recoverable => readPairs_writePairs recoverable (List.forall_mem_nil _)

/-! ## Blocks -/

/-- Pairs of texts are the same pairs as strings. -/
theorem map_ofList_eq_iff {pairs : List (List Char × List Char)}
    {strings : List (String × String)} :
    (pairs.map fun pair => (String.ofList pair.1, String.ofList pair.2)) = strings ↔
      pairs = strings.map fun pair => (pair.1.toList, pair.2.toList) := by
  constructor
  · rintro rfl
    simp only [List.map_map, Function.comp_def, String.toList_ofList, List.map_id']
  · rintro rfl
    simp only [List.map_map, Function.comp_def, String.ofList_toList, List.map_id']

/-- Pairs of key and value are read back from the block that holds them exactly if no key is
empty or holds a blank or an equals sign, and no value holds both quotes. -/
theorem pairs_ofPairs_iff (pairs : List (String × String)) :
    (ofPairs pairs).pairs = pairs ↔ ∀ pair ∈ pairs,
      pair.1 ≠ "" ∧ (∀ c ∈ pair.1.toList, Text.isWhiteSpace c = false) ∧ '=' ∉ pair.1.toList ∧
        ¬ ('"' ∈ pair.2.toList ∧ '\x27' ∈ pair.2.toList) := by
  have htext : (ofPairs pairs).text.toList =
      writePairs (pairs.map fun pair => (pair.1.toList, pair.2.toList)) := String.toList_ofList
  rw [DataBlock.pairs, htext, map_ofList_eq_iff, readPairs_writePairs_iff, List.forall_mem_map]
  refine forall₂_congr fun pair _ => ⟨fun recoverable => ?_, fun ⟨hne, hblank, hmark, hfree⟩ => ?_⟩
  · obtain ⟨hne, hblank, hmark, hfree⟩ := recoverable
    exact ⟨fun h => hne (String.toList_eq_nil_iff.mpr h), hblank, hmark, hfree⟩
  · exact ⟨fun h => hne (String.toList_eq_nil_iff.mp h), hblank, hmark, hfree⟩

/-- Whatever text a block is made from, the pairs read off it are read again off the block that is
written from them. So the block and its copy list the same pairs, also where the text goes on
behind them with something that is no pair. -/
theorem pairs_ofPairs_pairs (text : String) :
    (ofPairs (DataBlock.mk text).pairs).pairs = (DataBlock.mk text).pairs ∧
      ∀ pairs, Lists (ofPairs (DataBlock.mk text).pairs).text.toList pairs ↔
        Lists text.toList pairs := by
  have hread : readPairs text.toList =
      (DataBlock.mk text).pairs.map fun pair => (pair.1.toList, pair.2.toList) :=
    map_ofList_eq_iff.mp rfl
  have hwritten : (ofPairs (DataBlock.mk text).pairs).text.toList =
      writePairs (readPairs text.toList) := by
    rw [hread]
    exact String.toList_ofList
  have hagain : readPairs (ofPairs (DataBlock.mk text).pairs).text.toList =
      readPairs text.toList := by
    rw [hwritten]
    exact readPairs_writePairs_iff.mpr (recoverable_of_mem_readPairs text.toList)
  constructor
  · rw [DataBlock.pairs, hagain, hread]
    exact map_ofList_eq_iff.mpr rfl
  · intro pairs
    rw [lists_iff, lists_iff, hagain]

end DataBlock

end XPathTree
