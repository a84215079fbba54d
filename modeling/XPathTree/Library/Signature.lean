/-!
# Signatures of functions

A function goes by an expanded name and takes a number of arguments that its
arity admits.
-/

namespace XPathTree

/-- How many arguments a function takes; bounds are inclusive. -/
inductive Arity where
  | exactly (count : Nat)
  | between (least most : Nat)
  | atLeast (least : Nat)
  deriving DecidableEq

namespace Arity

/-- Whether a function of this arity takes that many arguments. -/
def accepts : Arity → Nat → Bool
  | exactly count, found => found == count
  | between least most, found => least ≤ found && found ≤ most
  | atLeast least, found => least ≤ found

/-- An arity as it is shown in messages. -/
def label : Arity → String
  | exactly count => toString count
  | between least most => toString least ++ " to " ++ toString most
  | atLeast least => "at least " ++ toString least

end Arity

/-- The expanded name of a function. The functions of the core library are in no
namespace. -/
structure FunctionName where
  uri : Option String
  localName : String
  deriving DecidableEq

namespace FunctionName

/-- A name without a namespace. -/
def core (localName : String) : FunctionName := ⟨none, localName⟩

/-- A name as it is shown in messages: the namespace, if any, in braces in front of
the local name. -/
def label (name : FunctionName) : String :=
  match name.uri with
  | some uri => "\x7b" ++ uri ++ "\x7d" ++ name.localName
  | none => name.localName

end FunctionName

end XPathTree
