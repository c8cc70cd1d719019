import SchemaTypes.ClassName.UserType
import SchemaTypes.Proofs.Bindings
import SchemaTypes.Proofs.ClassName.Arguments
import SchemaTypes.Proofs.ClassName.Invariants

/-!
# Scans under other names

No scan looks at a name that a decoder gives, but names are bound, and one that comes up again stays
in its place. So if the names are replaced by others, and different names by different ones, the
same text is read in the same way, with the other names in the places of the names.

## Main definitions

* `Decoder.mapNames`: the decoder with other names.

## Main results

* `Scan.items_map`: what is read from the items of a list.
* `Scan.namedUnits_mapNames`, `Scan.userType_mapNames`: scans that decode names.
-/

namespace SchemaTypes.ClassName

/-- The decoder that gives other names. Where a decoder gives none, so does this one. -/
def Decoder.mapNames (f : String → String) (decoder : Decoder) : Decoder :=
  fun dump => (decoder dump).map f

namespace Scan

variable {α β : Type}

theorem map_apply (g : α → β) (scan : Scan α) (p : Place) :
    (g <$> scan) p =
      match scan p with
      | .ok a q => .ok (g a) q
      | .error fault q => .error fault q := by
  change EStateM.map g scan p = _
  rw [EStateM.map]
  cases scan p <;> rfl

/-- What is made of each item of a list is made of the items that are read. -/
theorem items_map (g : α → β) {item : Scan α} (headway : Headway item)
    (headway' : Headway (g <$> item)) (p : Place) :
    items (g <$> item) headway' p =
      match items item headway p with
      | .ok as q => .ok (as.map g) q
      | .error fault q => .error fault q := by
  rw [items_apply, items_apply]
  cases hunread : p.skipSeparator.unread with
  | nil => rfl
  | cons c rest =>
    by_cases hclose : c = ')'
    · simp only [if_pos hclose]
      rfl
    · simp only [if_neg hclose, map_apply]
      cases hitem : item p.skipSeparator with
      | error fault q => rfl
      | ok a q =>
        -- The items behind the first one are read from less text.
        simp only [items_map g headway headway' q]
        cases items item headway q with
        | error fault r => rfl
        | ok as r => rfl
termination_by p.unread.length
decreasing_by exact headway.item_lt hunread hclose hitem

/-- What is made of a list is made of it also if the text has ended, where the list has no
elements. -/
theorem opened_map {g : List α → List β} (hg : g [] = []) (list : Scan (List α)) :
    opened (g <$> list) = g <$> opened list := by
  funext p
  rw [map_apply, opened_apply, opened_apply]
  cases p.unread with
  | nil => simp only [hg]
  | cons c rest =>
    by_cases hopens : c = '('
    · simp only [if_pos hopens, map_apply]
    · simp only [if_neg hopens]
      rfl

variable (f : String → String) (decoder : Decoder)

theorem decodeName_mapNames (dump : List Char) :
    decodeName (decoder.mapNames f) dump = f <$> decodeName decoder dump := by
  funext p
  rw [map_apply, decodeName, decodeName, Decoder.mapNames]
  cases decoder (String.ofList dump) with
  | ok name => rfl
  | error fault =>
    simp only [Except.map]
    split <;> rfl

theorem namedUnit_mapNames :
    namedUnit (decoder.mapNames f) = Prod.map f id <$> namedUnit decoder := by
  simp only [namedUnit, decodeName_mapNames, map_bind, bind_map_left, map_pure, Prod.map, id]

theorem namedUnits_apply (p : Place) :
    namedUnits decoder p =
      match items (namedUnit decoder) (headway_namedUnit decoder) p with
      | .ok pairs q => .ok (.ofPairs pairs) q
      | .error fault q => .error fault q := by
  cases hitems : items (namedUnit decoder) (headway_namedUnit decoder) p with
  | ok pairs q => exact bind_of_eq_ok hitems _
  | error fault q => exact bind_of_eq_error hitems _

variable {f} (hf : Function.Injective f)

include hf

/-- Different names stay different, so that the same units are bound. -/
theorem namedUnits_mapNames :
    namedUnits (decoder.mapNames f) = List.map (Prod.map f id) <$> namedUnits decoder := by
  funext p
  have hunit := namedUnit_mapNames f decoder
  have hheadway : Headway (Prod.map f id <$> namedUnit decoder) :=
    hunit ▸ headway_namedUnit (decoder.mapNames f)
  rw [map_apply, namedUnits_apply, namedUnits_apply]
  simp only [hunit, items_map (Prod.map f id) (headway_namedUnit decoder) hheadway p]
  cases items (namedUnit decoder) (headway_namedUnit decoder) p with
  | error fault q => rfl
  | ok pairs q => simp only [Bindings.ofPairs_map hf]

theorem namedArguments_mapNames :
    namedArguments (decoder.mapNames f) =
      List.map (Prod.map f id) <$> namedArguments decoder := by
  rw [namedArguments, namedUnits_mapNames decoder hf]
  exact opened_map List.map_nil _

/-- The keyspace is not decoded, and keeps its name. -/
theorem userType_mapNames : userType (decoder.mapNames f) =
    (fun t => ⟨t.keyspace, f t.name, t.fields.map (Prod.map f id)⟩) <$> userType decoder := by
  simp only [userType, decodeName_mapNames, namedUnits_mapNames decoder hf, map_bind,
    bind_map_left, map_pure]

end Scan

end SchemaTypes.ClassName
