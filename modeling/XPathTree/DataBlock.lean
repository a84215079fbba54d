import XPathTree.Text.Split

/-!
# Data blocks

The data of a processing instruction is a text. By custom it often holds pairs
written as `key="value"`; a block can be written from such pairs and read back
as far as it keeps to that form.
-/

namespace XPathTree

/-- The data block of a processing instruction. -/
structure DataBlock where
  text : String
  deriving DecidableEq

namespace DataBlock

/-- The characters that may enclose a value. -/
def isQuote (c : Char) : Bool := c == '"' || c == '\x27'

/-- The quote a value is written with: double, unless the value holds one. -/
def quoteFor (value : List Char) : Char :=
  if '"' ∈ value then '\x27' else '"'

/-- One pair as text: key, equals sign, quoted value. -/
def writePair (pair : List Char × List Char) : List Char :=
  let quote := quoteFor pair.2
  pair.1 ++ '=' :: quote :: pair.2 ++ [quote]

/-- The pairs of a block as text, one space apart. -/
def writePairs (pairs : List (List Char × List Char)) : List Char :=
  [' '].intercalate (pairs.map writePair)

/-- Reads one pair off the front of a block and returns it with the rest. Blanks
are skipped around the key and before the value; a key is non-empty and has no
blank inside. -/
def readPair? (text : List Char) :
    Option ((List Char × List Char) × List Char) := do
  let (before, afterMark) ← Text.splitAtFirst '=' text
  let key := Text.trim Text.isWhiteSpace before
  match afterMark.dropWhile Text.isWhiteSpace with
  | [] => none
  | quote :: body =>
    if isQuote quote then
      let (value, rest) ← Text.splitAtFirst quote body
      if key.isEmpty || key.any Text.isWhiteSpace then none
      else some ((key, value), rest)
    else none

private theorem length_dropWhile_le (p : Char → Bool) (text : List Char) :
    (text.dropWhile p).length ≤ text.length :=
  (List.dropWhile_suffix p).length_le

/-- What is left after a pair is shorter than the block. -/
theorem length_lt_of_readPair? {text rest : List Char} {pair : List Char × List Char}
    (h : readPair? text = some (pair, rest)) : rest.length < text.length := by
  simp only [readPair?, Option.bind_eq_bind, Option.bind_eq_some_iff] at h
  obtain ⟨⟨before, afterMark⟩, hmark, h⟩ := h
  have hafter := Text.length_lt_of_splitAtFirst hmark
  have hdrop := length_dropWhile_le Text.isWhiteSpace afterMark
  split at h
  · cases h
  · next quote body hbody =>
    rw [hbody, List.length_cons] at hdrop
    split at h
    · obtain ⟨⟨value, rest'⟩, hquote, h⟩ := Option.bind_eq_some_iff.mp h
      have hrest := Text.length_lt_of_splitAtFirst hquote
      split at h
      · cases h
      · obtain ⟨-, rfl⟩ : (_, _) = pair ∧ rest' = rest := by simpa using h
        omega
    · cases h

/-- Reads pairs off the front of a block until the first text that is no pair. -/
def readPairs (text : List Char) : List (List Char × List Char) :=
  match _h : readPair? text with
  | none => []
  | some (pair, rest) => pair :: readPairs rest
termination_by text.length
decreasing_by exact length_lt_of_readPair? _h

/-- A block that holds the given pairs of key and value, in order. -/
def ofPairs (pairs : List (String × String)) : DataBlock :=
  ⟨String.ofList (writePairs (pairs.map fun pair => (pair.1.toList, pair.2.toList)))⟩

/-- The pairs of key and value at the front of a block, in order. -/
def pairs (block : DataBlock) : List (String × String) :=
  (readPairs block.text.toList).map fun pair =>
    (String.ofList pair.1, String.ofList pair.2)

/-- The value of the first pair with the given key. -/
def value? (block : DataBlock) (key : String) : Option String :=
  block.pairs.lookup key

end DataBlock

end XPathTree
