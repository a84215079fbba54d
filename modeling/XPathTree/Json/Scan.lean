/-!
# Scanning JSON

Strict JSON texts, read as far as their outermost level: an object gives its
members and an array its elements, each value by its own text. The values inside
are checked against the grammar and not taken apart.

Each scan takes a text and gives what is left of it behind the thing scanned, or
nothing if the text does not start with such a thing.
-/

namespace XPathTree.Json

/-- The text from its first character on that is no blank of JSON. -/
def skipBlanks (text : List Char) : List Char :=
  text.dropWhile fun c => c == ' ' || c == '\t' || c == '\n' || c == '\r'

/-- Scans the given characters. -/
def scanExactly (expected text : List Char) : Option (List Char) :=
  expected.isPrefixOf? text

/-! ## Numbers -/

/-- Scans decimal digits, of which there has to be one. -/
def scanDigits (text : List Char) : Option (List Char) :=
  match text with
  | [] => none
  | c :: rest => if c.isDigit then some (rest.dropWhile Char.isDigit) else none

/-- Scans digits that do not start with a zero, or a single zero. -/
def scanWhole (text : List Char) : Option (List Char) :=
  match text with
  | '0' :: c :: rest => if c.isDigit then none else some (c :: rest)
  | _ => scanDigits text

/-- Scans the places behind a point, if there is a point. -/
def scanFraction (text : List Char) : Option (List Char) :=
  match text with
  | '.' :: rest => scanDigits rest
  | _ => some text

/-- Scans an exponent, if there is one. -/
def scanExponent (text : List Char) : Option (List Char) :=
  match text with
  | c :: rest =>
    if c == 'e' || c == 'E' then
      match rest with
      | s :: digits => if s == '+' || s == '-' then scanDigits digits else scanDigits rest
      | [] => none
    else some text
  | [] => some text

/-- Scans a number. -/
def scanNumber (text : List Char) : Option (List Char) :=
  let unsigned := match text with
    | '-' :: rest => rest
    | _ => text
  scanWhole unsigned >>= scanFraction >>= scanExponent

/-! ## Strings -/

/-- The value of a hexadecimal digit. -/
def hexDigit? (c : Char) : Option Nat :=
  if c.isDigit then some (c.toNat - '0'.toNat)
  else if 'a' ≤ c ∧ c ≤ 'f' then some (c.toNat - 'a'.toNat + 10)
  else if 'A' ≤ c ∧ c ≤ 'F' then some (c.toNat - 'A'.toNat + 10)
  else none

/-- The number that four hexadecimal digits denote. -/
def hexUnit? (a b c d : Char) : Option Nat := do
  let w ← hexDigit? a
  let x ← hexDigit? b
  let y ← hexDigit? c
  let z ← hexDigit? d
  some (((w * 16 + x) * 16 + y) * 16 + z)

/-- The character that a letter stands for behind a backslash. -/
def escaped? (c : Char) : Option Char :=
  match c with
  | '"' => some '"'
  | '\\' => some '\\'
  | '/' => some '/'
  | 'b' => some '\x08'
  | 'f' => some '\x0c'
  | 'n' => some '\n'
  | 'r' => some '\r'
  | 't' => some '\t'
  | _ => none

/-- Scans a string behind its opening quote, and gives what is written up to the
closing quote as well. Escapes by number need not denote characters. -/
def scanString : List Char → Option (List Char × List Char)
  | [] => none
  | '"' :: rest => some ([], rest)
  | '\\' :: 'u' :: a :: b :: c :: d :: rest =>
    if (hexUnit? a b c d).isSome then
      (scanString rest).map fun (inner, rest) =>
        ('\\' :: 'u' :: a :: b :: c :: d :: inner, rest)
    else none
  | '\\' :: c :: rest =>
    if (escaped? c).isSome then
      (scanString rest).map fun (inner, rest) => ('\\' :: c :: inner, rest)
    else none
  | c :: rest =>
    if c.toNat < 0x20 || c == '\\' then none
    else (scanString rest).map fun (inner, rest) => (c :: inner, rest)

/-- The characters of a string from what is written between its quotes. Two escapes
by number that form a surrogate pair denote one character; a surrogate without
the other denotes none. -/
def decode : List Char → Option (List Char)
  | [] => some []
  | '\\' :: 'u' :: a :: b :: c :: d :: rest => do
    let high ← hexUnit? a b c d
    if 0xDC00 ≤ high ∧ high < 0xE000 then none
    else if 0xD800 ≤ high ∧ high < 0xDC00 then
      match rest with
      | '\\' :: 'u' :: e :: f :: g :: h :: rest => do
        let low ← hexUnit? e f g h
        if 0xDC00 ≤ low ∧ low < 0xE000 then
          let character := Char.ofNat (0x10000 + (high - 0xD800) * 0x400 + (low - 0xDC00))
          (decode rest).map (character :: ·)
        else none
      | _ => none
    else (decode rest).map (Char.ofNat high :: ·)
  | '\\' :: c :: rest => do
    let character ← escaped? c
    (decode rest).map (character :: ·)
  | c :: rest => (decode rest).map (c :: ·)

/-! ## Values -/

mutual

/-- Scans a value. -/
def scanValue : (bound : Nat) → List Char → Option (List Char)
  | 0, _ => none
  | bound + 1, text =>
    match text with
    | [] => none
    | '"' :: rest => (scanString rest).map (·.2)
    | '[' :: rest =>
      match skipBlanks rest with
      | ']' :: rest => some rest
      | rest => scanElements bound rest
    | '\x7b' :: rest =>
      match skipBlanks rest with
      | '\x7d' :: rest => some rest
      | rest => scanMembers bound rest
    | 't' :: rest => scanExactly ['r', 'u', 'e'] rest
    | 'f' :: rest => scanExactly ['a', 'l', 's', 'e'] rest
    | 'n' :: rest => scanExactly ['u', 'l', 'l'] rest
    | _ => scanNumber text

/-- Scans the elements of an array from the first one on, and its end. -/
def scanElements : (bound : Nat) → List Char → Option (List Char)
  | 0, _ => none
  | bound + 1, text => do
    let rest ← scanValue bound text
    match skipBlanks rest with
    | ',' :: rest => scanElements bound (skipBlanks rest)
    | ']' :: rest => some rest
    | _ => none

/-- Scans the members of an object from the first one on, and its end. -/
def scanMembers : (bound : Nat) → List Char → Option (List Char)
  | 0, _ => none
  | bound + 1, text =>
    match text with
    | '"' :: rest => do
      let (_, rest) ← scanString rest
      match skipBlanks rest with
      | ':' :: rest => do
        let rest ← scanValue bound (skipBlanks rest)
        match skipBlanks rest with
        | ',' :: rest => scanMembers bound (skipBlanks rest)
        | '\x7d' :: rest => some rest
        | _ => none
      | _ => none
    | _ => none

end

/-- Scans a value at the front of a text and gives the text of the value as well.
Nesting is bounded by the length of the text alone. -/
def splitValue (text : List Char) : Option (List Char × List Char) :=
  (scanValue (2 * text.length + 2) text).map fun rest =>
    (text.take (text.length - rest.length), rest)

/-! ## The outermost level -/

/-- The elements of an array from the first one on, each as its text, and what is
left behind the array. -/
def readElements : (bound : Nat) → List Char → Option (List (List Char) × List Char)
  | 0, _ => none
  | bound + 1, text => do
    let (value, rest) ← splitValue text
    match skipBlanks rest with
    | ',' :: rest =>
      (readElements bound (skipBlanks rest)).map fun (values, rest) =>
        (value :: values, rest)
    | ']' :: rest => some ([value], rest)
    | _ => none

/-- The members of an object from the first one on, each as its decoded key and the
text of its value, and what is left behind the object. -/
def readMembers :
    (bound : Nat) → List Char → Option (List (String × List Char) × List Char)
  | 0, _ => none
  | bound + 1, text =>
    match text with
    | '"' :: rest => do
      let (written, rest) ← scanString rest
      let key ← decode written
      match skipBlanks rest with
      | ':' :: rest => do
        let (value, rest) ← splitValue (skipBlanks rest)
        let first := (String.ofList key, value)
        match skipBlanks rest with
        | ',' :: rest =>
          (readMembers bound (skipBlanks rest)).map fun (members, rest) =>
            (first :: members, rest)
        | '\x7d' :: rest => some ([first], rest)
        | _ => none
      | _ => none
    | _ => none

/-- A JSON text that is an object or an array, by the texts of its values. -/
inductive Outline where
  | object (members : List (String × List Char))
  | array (elements : List (List Char))

/-- Gives what was read if nothing but blanks is left behind it. -/
def complete {α : Type} (result : α × List Char) : Option α :=
  if (skipBlanks result.2).isEmpty then some result.1 else none

/-- Reads the outline of a text. -/
def outline? (text : String) : Option Outline :=
  let chars := text.toList
  match skipBlanks chars with
  | '\x7b' :: rest =>
    match skipBlanks rest with
    | '\x7d' :: rest => (complete ([], rest)).map .object
    | rest => ((readMembers chars.length rest).bind complete).map .object
  | '[' :: rest =>
    match skipBlanks rest with
    | ']' :: rest => (complete ([], rest)).map .array
    | rest => ((readElements chars.length rest).bind complete).map .array
  | _ => none

end XPathTree.Json
