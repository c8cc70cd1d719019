import Mathlib.Algebra.GroupWithZero.Nat
import SchemaTypes.Proofs.ClassName.Sinks
import SchemaTypes.Proofs.CqlType.RoundTrip

/-!
# What is reported about a written expression

Reading an expression reports what there is to say about its outermost class, and then what there
is to say about its arguments, from left to right. A class is reported if the freezing wrapper
stands around it and it is no collection, and if it is not known.

## Main definitions

* `Expr.events`: the events of an expression in order.
* `Expr.frozenNonCollections`: how often the freezing wrapper stands around something other than a
  collection.

## Main results

* `ofChars_render`: an expression is read with its events and its type.
* `Expr.countP_events`: there is one diagnostic for each freezing wrapper around something other
  than a collection.
-/

namespace SchemaTypes

namespace CqlType

open ClassName Layer

namespace Bare

variable {α β : Type}

/-- The class is one of the three collections. -/
def isCollection : Bare α → Bool
  | .list _ => true
  | .set _ => true
  | .map _ _ => true
  | _ => false

/-- What is reported about a class and the wrapper around it, apart from its arguments. -/
def events (wrapper : Wrapper) (bare : Bare α) : List Event :=
  (if wrapper = .frozen ∧ bare.isCollection = false then [.diagnosed .frozenNonCollection] else [])
    ++ match bare with
      | .unknown u => [.keptVerbatim (String.ofList (u.name ++ u.group))]
      | _ => []

theorem events_mapParts (f : α → β) (wrapper : Wrapper) (bare : Bare α) :
    (bare.mapParts f).events wrapper = bare.events wrapper := by
  cases bare <;> rfl

end Bare

namespace Expr

/-- What is reported about an expression: about its class, and then about the arguments from left
to right. -/
def events : Expr → List Event := fold fun wrapper bare => bare.events wrapper ++ bare.parts.flatten

/-- How often the freezing wrapper stands around something other than a collection. -/
def frozenNonCollections : Expr → Nat := fold fun wrapper bare =>
  (if wrapper = .frozen ∧ bare.isCollection = false then 1 else 0) + bare.parts.sum

theorem events_mk (wrapper : Wrapper) (bare : Bare Expr) :
    events (.mk wrapper bare) = bare.events wrapper ++ bare.parts.flatMap events := by
  rw [events, fold_mk, Bare.events_mapParts, Bare.parts_mapParts]
  rfl

theorem frozenNonCollections_mk (wrapper : Wrapper) (bare : Bare Expr) :
    frozenNonCollections (.mk wrapper bare) =
      (bare.events wrapper).countP Event.isDiagnosed +
        (bare.parts.map frozenNonCollections).sum := by
  rw [frozenNonCollections, fold_mk, Bare.parts_mapParts]
  congr 1
  cases wrapper <;> cases bare <;> rfl

/-- There is one diagnostic for each freezing wrapper around something other than a collection. -/
theorem countP_events (e : Expr) : e.events.countP Event.isDiagnosed = e.frozenNonCollections := by
  induction e using induct with
  | mk wrapper bare ih =>
    rw [events_mk, frozenNonCollections_mk, List.countP_append, List.countP_flatMap]
    -- The same is counted at this level; what is left to compare are the arguments.
    congr 2
    exact List.map_congr_left ih

end Expr

namespace Layer

variable {α β : Type}

/-- The outermost level of a written class is read with what is reported about the class. -/
theorem ofClassName_collect_around {bare : Bare (List Char)} (h : bare.Writable)
    (wrapper : Wrapper) : ofClassName .hexDump .collect (wrapper.around bare.text) =
      ⟨bare.events wrapper, .ok (bare.layer (wrapper = .frozen))⟩ := by
  rw [ofClassName_around h]
  -- Whether the class is reported depends on the wrapper and on the kind of class alone.
  cases wrapper <;> cases bare <;> rfl

/-- The parts of a written level are read from left to right. -/
theorem traverse_layer_of_eq {bare : Bare α} {g : α → List Char} {f : α → β}
    {events : α → List Event} (read : List Char → Reading β)
    (h : ∀ a ∈ bare.parts, read (g a) = ⟨events a, .ok (f a)⟩) (frozen : Bool) :
    (((bare.mapParts g).layer frozen).traverse fun part _ => read part) =
      ⟨bare.parts.flatMap events, .ok ((bare.mapParts f).layer frozen)⟩ := by
  cases bare with
  | native t => rfl
  | unknown u => rfl
  | list element =>
    change read (g element) >>= _ = _
    rw [Reading.bind_of_eq (h element (.head _))]
    rfl
  | set element =>
    change read (g element) >>= _ = _
    rw [Reading.bind_of_eq (h element (.head _))]
    rfl
  | map key value =>
    change (read (g key) >>= fun _ => read (g value) >>= _) = _
    rw [Reading.bind_of_eq (h key (.head _)), Reading.bind_of_eq (h value (.tail _ (.head _)))]
    rfl
  | tuple elements =>
    have heach := Reading.each_map_of_eq read rfl h
    refine (Reading.bind_of_eq heach _).trans ?_
    exact congrArg (Reading.mk · _) (List.append_nil _)
  | userType keyspace name fields =>
    have hfields : ∀ field ∈ fields, read (g field.2) = ⟨events field.2, .ok (f field.2)⟩ :=
      fun field hfield => h _ (List.mem_map_of_mem hfield)
    -- The names are taken off before the types are read, and put back to them in order.
    have heach := Reading.each_map_of_eq read (Bindings.values_map g fields) hfields
    refine (Reading.bind_of_eq heach _).trans ?_
    rw [Bindings.names_map, List.zip_map', Bare.parts, List.flatMap_map]
    exact congrArg (Reading.mk · _) (List.append_nil _)

end Layer

/-- Reading undoes writing, and reports what there is to say about the expression. -/
theorem ofChars_render {e : Expr} (he : e.DistinctFields) :
    ofChars .hexDump .collect e.render = ⟨e.events, .ok e.type⟩ := by
  induction e using Expr.induct with
  | mk wrapper bare ih =>
    obtain ⟨hnames, hparts⟩ := (Expr.distinctFields_mk wrapper bare).1 he
    have hread : ∀ e ∈ bare.parts, ofChars .hexDump .collect e.render = ⟨e.events, .ok e.type⟩ :=
      fun e hmem => ih e hmem (hparts e hmem)
    have hlayer := Layer.ofClassName_collect_around (bare.writable_render hnames) wrapper
    have hinner := Layer.traverse_layer_of_eq (ofChars .hexDump .collect) hread (wrapper = .frozen)
    rw [Expr.render_mk, Expr.type_mk, ← Bare.ofLayer_layer, Expr.events_mk, ofChars_eq_bind,
      Reading.bind_of_eq hlayer, Reading.bind_pure_eq_map, hinner, Bare.events_mapParts]
    rfl

end CqlType

end SchemaTypes
