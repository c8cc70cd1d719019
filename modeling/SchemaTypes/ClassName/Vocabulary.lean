import SchemaTypes.CqlType.Native

/-!
# The vocabulary of class names

A class name is one of a fixed stock of words, each behind the name of the package, followed by
its arguments. Wrappers, collections and the other structured classes are recognised by how a
text starts; a native class by its whole name.

## Main definitions

* The words: `package`, `inPackage`, `reversedClass`, ..., `nativeClass`.
* `Head.ofName`: what kind of type a name announces.
-/

namespace SchemaTypes.ClassName

/-- The package of all known classes, with the dot at its end. -/
def package : List Char := "org.apache.cassandra.db.marshal.".toList

/-- The class with a given name inside the package. -/
def inPackage (simpleName : String) : List Char := package ++ simpleName.toList

/-- The wrapper that reverses the clustering order. -/
def reversedClass : List Char := inPackage "ReversedType"

/-- The wrapper that freezes a collection. -/
def frozenClass : List Char := inPackage "FrozenType"

/-- The class of a comparator with several components. -/
def compositeClass : List Char := inPackage "CompositeType"

/-- The block of dynamic columns that may end a composite. -/
def dynamicColumnsClass : List Char := inPackage "ColumnToCollectionType"

/-- The class of user-defined types. -/
def userTypeClass : List Char := inPackage "UserType"

/-- The class of tuples. -/
def tupleClass : List Char := inPackage "TupleType"

/-- The class of durations. -/
def durationClass : List Char := inPackage "DurationType"

/-- The collections, which differ in the number of their arguments. -/
inductive CollectionKind
  | list
  | set
  | map
  deriving DecidableEq, Repr

namespace CollectionKind

/-- The name of the collection's class inside the package. -/
def simpleName : CollectionKind → String
  | .list => "ListType"
  | .set => "SetType"
  | .map => "MapType"

/-- The class of the collection. -/
def className (kind : CollectionKind) : List Char := inPackage kind.simpleName

/-- How many arguments the class takes: the element type, or the types of key and value. -/
def arity : CollectionKind → Nat
  | .list => 1
  | .set => 1
  | .map => 2

end CollectionKind

/-- The name of a native type's class inside the package. -/
def nativeSimpleName : NativeType → String
  | .ascii => "AsciiType"
  | .bigint => "LongType"
  | .blob => "BytesType"
  | .boolean => "BooleanType"
  | .counter => "CounterColumnType"
  | .decimal => "DecimalType"
  | .double => "DoubleType"
  | .float => "FloatType"
  | .inet => "InetAddressType"
  | .int => "Int32Type"
  | .text => "UTF8Type"
  | .timestamp => "TimestampType"
  | .date => "SimpleDateType"
  | .time => "TimeType"
  | .uuid => "UUIDType"
  | .varint => "IntegerType"
  | .timeuuid => "TimeUUIDType"
  | .tinyint => "ByteType"
  | .smallint => "ShortType"
  | .duration => "DurationType"

/-- The class of a native type. -/
def nativeClass (t : NativeType) : List Char := inPackage (nativeSimpleName t)

/-- The native type of a class, known by its whole name. -/
def native? (name : List Char) : Option NativeType :=
  NativeType.all.find? fun t => name == nativeClass t

/-- The text starts with the wrapper that reverses. -/
def isReversed (text : List Char) : Bool := reversedClass.isPrefixOf text

/-- The text starts with the wrapper that freezes. -/
def isFrozen (text : List Char) : Bool := frozenClass.isPrefixOf text

/-- The text starts with the class of composites. -/
def isComposite (text : List Char) : Bool := compositeClass.isPrefixOf text

/-- The text starts with the class of blocks of dynamic columns. -/
def isDynamicColumns (text : List Char) : Bool := dynamicColumnsClass.isPrefixOf text

/-- The text starts with the class of a collection. -/
def isCollection (kind : CollectionKind) (text : List Char) : Bool :=
  kind.className.isPrefixOf text

/-- The text starts with the class of user-defined types. -/
def isUserType (text : List Char) : Bool := userTypeClass.isPrefixOf text

/-- The text starts with the class of tuples. -/
def isTuple (text : List Char) : Bool := tupleClass.isPrefixOf text

/-- The text is the class of durations. -/
def isDuration (text : List Char) : Bool := text == durationClass

/-- What kind of type a name announces. -/
inductive Head
  | collection (kind : CollectionKind)
  | userType
  | tuple
  | native (t : NativeType)
  | unknown
  deriving DecidableEq, Repr

namespace Head

/-- The kind of type that a name announces: a structured class by how the name starts, then a
native class by the whole name. -/
def ofName (name : List Char) : Head :=
  if isCollection .list name then .collection .list
  else if isCollection .set name then .collection .set
  else if isCollection .map name then .collection .map
  else if isUserType name then .userType
  else if isTuple name then .tuple
  else
    match native? name with
    | some t => .native t
    | none => .unknown

/-- The name is that of a collection. -/
def isCollection : Head → Bool
  | .collection _ => true
  | _ => false

end Head

end SchemaTypes.ClassName
