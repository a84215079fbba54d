import XPathTree.Context

/-!
# Function libraries

A library holds functions by expanded name, one for each name, and checks the
number of arguments before it lets a function run.
-/

namespace XPathTree

/-- A function: how many arguments it takes, and what it makes of them in the
context of a call. -/
structure FunctionDef where
  arity : Arity
  run : Context → List Value → Except EvalError Value

/-- Functions by name, in the order of their first registration. -/
structure Library where
  entries : List (FunctionName × FunctionDef)

namespace Library

/-- The library without functions. -/
def empty : Library := ⟨[]⟩

/-- The function of a name. -/
def find? (library : Library) (name : FunctionName) : Option FunctionDef :=
  library.entries.lookup name

/-- Whether there is a function of a name. -/
def contains (library : Library) (name : FunctionName) : Bool :=
  (library.find? name).isSome

/-- The number of functions. -/
def size (library : Library) : Nat := library.entries.length

/-- The names of the functions. -/
def names (library : Library) : List FunctionName := library.entries.map (·.1)

/-- The entries with a function under a name, in place of an earlier one. -/
def insertEntry (name : FunctionName) (function : FunctionDef) :
    List (FunctionName × FunctionDef) → List (FunctionName × FunctionDef)
  | [] => [(name, function)]
  | entry :: rest =>
    if entry.1 = name then (name, function) :: rest
    else entry :: insertEntry name function rest

/-- The library with a function under a name, in place of an earlier one. -/
def register (library : Library) (name : FunctionName) (function : FunctionDef) : Library :=
  ⟨insertEntry name function library.entries⟩

/-- A registered function is found under its name, and the functions of all other
names stay. -/
theorem find?_register (library : Library) (name other : FunctionName)
    (function : FunctionDef) :
    (library.register name function).find? other =
      if other = name then some function else library.find? other := by
  obtain ⟨entries⟩ := library
  simp only [register, find?]
  induction entries with
  | nil => simp only [insertEntry, List.lookup_cons, List.lookup_nil]; grind
  | cons entry rest ih =>
    obtain ⟨key, old⟩ := entry
    simp only [insertEntry]
    split <;> simp only [List.lookup_cons] <;> grind

/-- Calls the function of a name, if it takes that many arguments. -/
def call (library : Library) (name : FunctionName) (ctx : Context)
    (arguments : List Value) : Except EvalError Value :=
  match library.find? name with
  | none => .error (.unknownFunction name)
  | some function =>
    if function.arity.accepts arguments.length then function.run ctx arguments
    else .error (.argumentCount name function.arity arguments.length)

end Library

end XPathTree
