import SchemaTypes.Proofs.ClassName.Causes
import SchemaTypes.Proofs.Comparator.Faults

/-!
# Every fault of a class name tells of its causes

However deep in a class name a fault is met, it has one cause at most. Types and comparators are
read level by level, and no level tells of the faults of its parts once more.

## Main results

* `ofClassName_explains`: the faults of types and comparators, and their causes.
-/

namespace SchemaTypes.Comparator

open ClassName

/-- If a type or a comparator is malformed, there is one cause at most, and it is the one that the
fault tells of. -/
theorem ofClassName_explains (className : String) (decoder : Decoder) (sink : Sink)
    (hsink : sink.Accepts) (fault : SyntaxFault) (causes : List Cause)
    (h : (CqlType.ofClassName decoder sink className).outcome = .error (.malformed fault causes) ∨
      (ofClassName decoder sink className).outcome = .error (.malformed fault causes)) :
    causes.length ≤ 1 ∧ fault.Explains decoder causes := by
  have hraised : Fault.Raised decoder (.malformed fault causes) :=
    h.elim (CqlType.raised_of_ofChars hsink) (raised_of_ofChars hsink)
  exact ⟨hraised.explains.length_le, hraised.explains⟩

/-- An argument two levels deep is malformed. -/
theorem ofClassName_explains_in_set_in_list :
    let fault := ⟨"org.apache.cassandra.db.marshal.SetType(a [)", 42,
      .inArgument 42 (.groupExpected '[')⟩
    let causes := [.malformed ⟨"org.apache.cassandra.db.marshal.SetType(a [)", 42,
      .groupExpected '['⟩]
    (CqlType.ofClassName .hexDump .log ("org.apache.cassandra.db.marshal.ListType(" ++
        "org.apache.cassandra.db.marshal.SetType(a [))")).outcome =
          .error (.malformed fault causes) ∧
      causes.length ≤ 1 ∧ fault.Explains .hexDump causes := by
  intro fault causes
  have h : (CqlType.ofClassName .hexDump .log ("org.apache.cassandra.db.marshal.ListType(" ++
      "org.apache.cassandra.db.marshal.SetType(a [))")).outcome =
        .error (.malformed fault causes) := by
    decide +kernel
  exact ⟨h, ofClassName_explains _ .hexDump .log Sink.accepts_log fault causes (.inl h)⟩

example : (ofClassName .hexDump .log ("org.apache.cassandra.db.marshal.CompositeType(" ++
    "org.apache.cassandra.db.marshal.UserType(ks,zz))")).outcome =
      .error (.malformed ⟨"org.apache.cassandra.db.marshal.UserType(ks,zz)", 46,
        .undecodable "zz" (.dump (.notHex 0))⟩ [.decoder (.dump (.notHex 0))]) := by
  decide +kernel

end SchemaTypes.Comparator
