import SchemaTypes.ClassName.Arguments

/-!
# Arguments of user-defined types

A user-defined type has its keyspace and its name before its fields, which are named units.

## Main definitions

* `Scan.UserType` and `Scan.userType`: the keyspace, the name and the fields.

## Main results

* `Scan.length_lt_of_mem_userType`: the type of a field is shorter than the text of the arguments.
-/

namespace SchemaTypes.ClassName.Scan

/-- The arguments of a user-defined type. -/
structure UserType where
  /-- The keyspace, as it is written. -/
  keyspace : List Char
  /-- The name, decoded. -/
  name : String
  /-- The types of the fields, unread, by their decoded names. -/
  fields : Bindings (List Char)

/-- Reads the arguments of a user-defined type: the keyspace, a separator, the name, a separator,
and the fields up to the closing parenthesis. Neither separator has to hold a comma. -/
def userType (decoder : Decoder) : Scan UserType := do
  mark '(' .userTypeGroupExpected
  let keyspace ← unit
  let _ ← skipSeparator
  let dump ← unit
  let name ← decodeName decoder dump
  let _ ← skipSeparator
  let fields ← namedUnits decoder
  return ⟨keyspace, name, fields⟩

/-- The steps in which the arguments of a user-defined type are read. -/
theorem steps_of_userType {decoder : Decoder} {p q : Place} {t : UserType}
    (h : userType decoder p = .ok t q) :
    ∃ p₁ p₂ p₃ dump, mark '(' .userTypeGroupExpected p = .ok () p₁ ∧
      unit p₁ = .ok t.keyspace p₂ ∧ unit p₂.skipSeparator = .ok dump p₃ ∧
      decodeName decoder dump p₃ = .ok t.name p₃ ∧
      namedUnits decoder p₃.skipSeparator = .ok t.fields q := by
  simp only [userType, bind_eq_ok_iff] at h
  obtain ⟨_, p₁, hmark, keyspace, p₂, hkeyspace, _, _, hcomma, dump, p₃, hdump, name, _, hname,
    _, _, hcomma', fields, _, hfields, ht⟩ := h
  cases hcomma
  cases hcomma'
  cases ht
  cases eq_of_decodeName hname
  exact ⟨p₁, p₂, p₃, dump, hmark, hkeyspace, hdump, hname, hfields⟩

/-- The fields of a user-defined type are read from less text than its arguments. -/
theorem fields_of_userType {decoder : Decoder} {p q : Place} {t : UserType}
    (h : userType decoder p = .ok t q) :
    ∃ r, namedUnits decoder r = .ok t.fields q ∧ r.unread.length < p.unread.length := by
  obtain ⟨p₁, p₂, p₃, dump, hmark, hkeyspace, hdump, -, hfields⟩ := steps_of_userType h
  -- Each step leaves no more text than the one before, and the parenthesis has been passed.
  have := length_lt_of_mark hmark
  have := length_unit_le hkeyspace
  have := p₂.length_skipSeparator_le
  have := length_unit_le hdump
  have := p₃.length_skipSeparator_le
  exact ⟨_, hfields, by omega⟩

/-- The type of a field is shorter than the text of the arguments. -/
theorem length_lt_of_mem_userType {decoder : Decoder} {p q : Place} {t : UserType}
    (h : userType decoder p = .ok t q) {u : List Char} (hu : u ∈ t.fields.values) :
    u.length < p.unread.length := by
  obtain ⟨r, hfields, hless⟩ := fields_of_userType h
  exact Nat.lt_trans (length_lt_of_mem_namedUnits hfields hu) hless

end SchemaTypes.ClassName.Scan
