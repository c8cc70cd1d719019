import SchemaTypes.Proofs.ClassName.Reading
import SchemaTypes.Proofs.ClassName.Renaming
import SchemaTypes.Proofs.CqlType.Induction

/-!
# Types under other names

The names that a decoder gives are the names of user-defined types and of their fields, and nothing
else in a type comes from it. With other names the same levels are read from the same texts, so
that the types have the other names and are the same in everything else.

## Main definitions

* `CqlType.mapNames`: the type with other names of user-defined types and fields.
* `Layer.mapNames`: one level with other names.

## Main results

* `Layer.ofClassName_mapNames`, `Layer.traverse_mapNames`: the levels that are read.
* `ofChars_mapNames`: the types that are read.
-/

namespace SchemaTypes.CqlType

open ClassName

mutual

/-- The type with other names of its user-defined types and their fields, at every depth. -/
def mapNames (f : String → String) : CqlType → CqlType
  | .native t => .native t
  | .list frozen element => .list frozen (element.mapNames f)
  | .set frozen element => .set frozen (element.mapNames f)
  | .map frozen key value => .map frozen (key.mapNames f) (value.mapNames f)
  | .udt frozen keyspace name fields => .udt frozen keyspace (f name) (mapFieldNames f fields)
  | .tuple elements => .tuple (mapAllNames f elements)
  | .custom className => .custom className

/-- Fields with other names, also in their types. -/
def mapFieldNames (f : String → String) : List (String × CqlType) → List (String × CqlType)
  | [] => []
  | (name, t) :: rest => (f name, t.mapNames f) :: mapFieldNames f rest

/-- Types with other names. -/
def mapAllNames (f : String → String) : List CqlType → List CqlType
  | [] => []
  | t :: rest => t.mapNames f :: mapAllNames f rest

end

theorem mapFieldNames_eq_map (f : String → String) (fields : List (String × CqlType)) :
    mapFieldNames f fields = fields.map (Prod.map f (mapNames f)) := by
  induction fields with
  | nil => rfl
  | cons field rest ih => rw [mapFieldNames, ih, List.map_cons, Prod.map]

theorem mapAllNames_eq_map (f : String → String) (types : List CqlType) :
    mapAllNames f types = types.map (mapNames f) := by
  induction types with
  | nil => rfl
  | cons t rest ih => rw [mapAllNames, ih, List.map_cons]

namespace Layer

variable {α β : Type}

/-- The level with other names, over parts that are made from its own. -/
def mapNames (f : String → String) (g : α → β) : Layer α → Layer β
  | .native t => .native t
  | .list frozen element => .list frozen (g element)
  | .set frozen element => .set frozen (g element)
  | .map frozen key value => .map frozen (g key) (g value)
  | .udt keyspace name fields => .udt keyspace (f name) (fields.map (Prod.map f g))
  | .tuple elements => .tuple (elements.map g)
  | .custom className => .custom className

/-- If the names change, so that the parts stay, and what is read from them is changed, the level
that is read is changed alike. -/
theorem traverse_mapNames (f : String → String) (g : β → β) {layer : Layer α}
    {read read' : α → Reading β} (h : ∀ part ∈ layer.parts, read' part = g <$> read part) :
    ((layer.mapNames f id).traverse fun part _ => read' part) =
      mapNames f g <$> layer.traverse fun part _ => read part := by
  have heach (parts : List α) (h : ∀ part ∈ parts, read' part = g <$> read part) :
      (Reading.each parts fun part _ => read' part) =
        List.map g <$> Reading.each parts fun part _ => read part := by
    rw [← Reading.each_map]
    exact Reading.each_congr h
  cases layer with
  | native t => rfl
  | custom className => rfl
  | list frozen element =>
    simp only [mapNames, traverse, id, h element (.head _), bind_map_left, map_bind, map_pure]
  | set frozen element =>
    simp only [mapNames, traverse, id, h element (.head _), bind_map_left, map_bind, map_pure]
  | map frozen key value =>
    simp only [mapNames, traverse, id, h key (.head _), h value (.tail _ (.head _)),
      bind_map_left, map_bind, map_pure]
  | udt keyspace name fields =>
    -- The fields have other names and the same values.
    dsimp only [mapNames, traverse, parts]
    rw [Bindings.values_map_fst, heach fields.values h]
    simp only [Bindings.names_map_fst, bind_map_left, map_bind, map_pure, mapNames, List.zip_map]
  | tuple elements =>
    dsimp only [mapNames, traverse, parts]
    rw [List.map_id, heach elements h]
    simp only [bind_map_left, map_bind, map_pure, mapNames]

variable {f : String → String} (hf : Function.Injective f) (decoder : Decoder) (sink : Sink)

include hf

theorem ofArguments_mapNames (frozen : Bool) (className : List Char) (p : Place) (head : Head) :
    ofArguments (decoder.mapNames f) frozen className p head =
      (ofArguments decoder frozen className p head).map (mapNames f id) := by
  cases head with
  | collection kind =>
    simp only [ofArguments]
    cases Scan.expectArguments kind.arity (.argumentCount kind) p with
    | error fault q => rfl
    | ok units q =>
      change ofElements frozen kind units = (ofElements frozen kind units).map _
      fun_cases ofElements frozen kind units <;> rfl
  | userType =>
    simp only [ofArguments, Scan.userType_mapNames decoder hf, Scan.map_apply]
    cases Scan.userType decoder p <;> rfl
  | tuple =>
    simp only [ofArguments]
    cases Scan.arguments p with
    | error fault q => rfl
    | ok units q => simp only [Except.map, mapNames, List.map_id]
  | native t => rfl
  | unknown => rfl

theorem ofClassName_mapNames (className : List Char) :
    ofClassName (decoder.mapNames f) sink className =
      mapNames f id <$> ofClassName decoder sink className := by
  have hexcept (outcome : Except Fault (Layer (List Char))) :
      Reading.ofExcept (outcome.map (mapNames f id)) =
        mapNames f id <$> Reading.ofExcept outcome := by
    rw [Reading.map_eq]
    rfl
  -- Neither the wrapper nor the reports depend on the decoder.
  simp only [ofClassName, ofUnwrapped, ofArguments_mapNames hf, hexcept, bind_map_left, map_bind,
    map_pure]

end Layer

theorem ofLayer_mapNames (f : String → String) (layer : Layer CqlType) :
    ofLayer (layer.mapNames f (mapNames f)) = (ofLayer layer).mapNames f := by
  cases layer <;> simp only [Layer.mapNames, ofLayer, mapNames, mapFieldNames_eq_map,
    mapAllNames_eq_map]

/-- With other names the type of a class name has these names, and its reading reports the same. -/
theorem ofChars_mapNames {f : String → String} (hf : Function.Injective f) (decoder : Decoder)
    (sink : Sink) (className : List Char) :
    ofChars (decoder.mapNames f) sink className =
      mapNames f <$> ofChars decoder sink className := by
  rw [ofChars_eq_bind, ofChars_eq_bind, Layer.ofClassName_mapNames hf, bind_map_left, map_bind]
  refine Reading.bind_congr fun layer hlayer => ?_
  -- The parts are shorter than the class name.
  have hparts (part : List Char) (hpart : part ∈ layer.parts) :
      ofChars (decoder.mapNames f) sink part = mapNames f <$> ofChars decoder sink part :=
    ofChars_mapNames hf decoder sink part
  rw [Layer.traverse_mapNames f (mapNames f) hparts]
  simp only [bind_map_left, map_bind, map_pure, ofLayer_mapNames]
termination_by className.length
decreasing_by exact Layer.length_lt_of_mem_parts hlayer hpart

end SchemaTypes.CqlType
