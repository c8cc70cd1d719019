import SchemaTypes.ClassName.Decoder
import SchemaTypes.ClassName.Vocabulary

/-!
# Faults of class names

What can keep a class name from being read: a reason at a place of the text, with the earlier
faults it reports in its own words, or a collaborator that gave up.

## Main definitions

* `Reason` and `Reason.text`: what is wrong, and its wording.
* `SyntaxFault`: a reason at a position of a class name.
* `LengthMismatch`: lists that have to go together and do not.
* `Fault`: how reading fails, with its chain of causes.
-/

namespace SchemaTypes.ClassName

/-- What is wrong at a place of a class name. -/
inductive Reason
  /-- A group in parentheses has to follow, and another character does. -/
  | groupExpected (found : Char)
  /-- A group is not closed before the text ends. -/
  | groupUnclosed
  /-- The text ends inside a list of arguments. -/
  | textEnded
  /-- A name is not followed by a colon. -/
  | colonExpected
  /-- A user-defined type has no arguments. -/
  | userTypeGroupExpected
  /-- A composite has no arguments. -/
  | componentsMissing
  /-- A wrapper has another number of arguments than one. -/
  | soleArgumentExpected (count : Nat)
  /-- A collection has the wrong number of arguments. -/
  | argumentCount (kind : CollectionKind) (count : Nat)
  /-- A decoder objects to the text of a name. -/
  | undecodable (dump : String) (fault : DecoderFault)
  /-- An argument is malformed. -/
  | inArgument (position : Nat) (inner : Reason)
  /-- A reason in the words of the caller. -/
  | stated (text : String)
  deriving DecidableEq, Repr

/-- The wording of a reason. -/
def Reason.text : Reason → String
  | .groupExpected found => "expecting '(' but '" ++ String.singleton found ++ "' found"
  | .groupUnclosed => "non closed parenthesis"
  | .textEnded => "unexpected end of string"
  | .colonExpected => "expecting ':' token"
  | .userTypeGroupExpected => "expecting '(' after UserType"
  | .componentsMissing => "CompositeType without components"
  | .soleArgumentExpected count =>
    "expected exactly 1 type parameter, got " ++ toString count
  | .argumentCount kind count =>
    kind.simpleName ++ " expects " ++ toString kind.arity ++ " type parameter(s), got " ++
      toString count
  | .undecodable dump fault =>
    "cannot decode hex identifier '" ++ dump ++ "': " ++ fault.message
  | .inArgument position inner =>
    "exception while parsing around char " ++ toString position ++ ": " ++ inner.text
  | .stated text => text

/-- A reason at a position of a class name. -/
structure SyntaxFault where
  /-- The text that was being read. -/
  className : String
  /-- The position in that text, in characters. -/
  position : Nat
  /-- What is wrong there. -/
  reason : Reason
  deriving DecidableEq, Repr

/-- The wording of a fault at a position. -/
def SyntaxFault.message (fault : SyntaxFault) : String :=
  "Syntax error parsing '" ++ fault.className ++ "' at char " ++ toString fault.position ++
    ": " ++ fault.reason.text

/-- An earlier fault that a later one reports in its own words. -/
inductive Cause
  | decoder (fault : DecoderFault)
  | malformed (fault : SyntaxFault)
  deriving DecidableEq, Repr

/-- Types and directions of which there are not equally many. -/
structure LengthMismatch where
  /-- The number of types. -/
  types : Nat
  /-- The number of directions. -/
  flags : Nat
  deriving DecidableEq, Repr

/-- The wording of a mismatch. -/
def LengthMismatch.message (mismatch : LengthMismatch) : String :=
  "Got " ++ toString mismatch.types ++ " components but " ++ toString mismatch.flags ++
    " reversed flags"

/-- How reading a class name fails. -/
inductive Fault
  /-- The text is malformed; the causes are the faults behind this one, the nearest first. -/
  | malformed (fault : SyntaxFault) (causes : List Cause)
  /-- The decoder could not do its work. -/
  | decoder (fault : DecoderFault)
  /-- The receiver of diagnostics refused one, in its own words. -/
  | refused (message : String)
  /-- There is no character at or past the end of the text. -/
  | pastEnd
  /-- A list has no element at the place that is looked up. -/
  | noElement
  /-- A list has not as many elements as are to be taken from it. -/
  | unpacked (expected found : Nat)
  /-- The types and the directions of components do not go together. -/
  | mismatched (mismatch : LengthMismatch)
  deriving DecidableEq, Repr

namespace Fault

/-- The wording of a fault. -/
def message : Fault → String
  | .malformed fault _ => fault.message
  | .decoder fault => fault.message
  | .refused message => message
  | .pastEnd => "string index out of range"
  | .noElement => "list index out of range"
  | .unpacked expected found =>
    if found < expected then
      "not enough values to unpack (expected " ++ toString expected ++ ", got " ++
        toString found ++ ")"
    else "too many values to unpack (expected " ++ toString expected ++ ")"
  | .mismatched mismatch => mismatch.message

/-- The faults behind a fault, the nearest first. -/
def causes : Fault → List Cause
  | .malformed _ causes => causes
  | _ => []

end Fault

end SchemaTypes.ClassName
