import DeployPlan.Parameter
import DeployPlan.Proofs.KeyMap

/-!
# References in values

The references in a value are replaced before the value becomes JSON.  It comes to the same to
replace them in the JSON: no key is touched, and no text takes part in deciding which entries of a
mapping are left out or overwrite each other.

## Main definitions

* `Json.mapTexts` — a JSON value with the texts in it replaced, the keys of objects apart.
* `Json.SameShape` — JSON values that differ in their texts only.

## Main results

* `Json.sameShape_mapTexts` — new texts leave the rest of a value as it is.
* `Yaml.Value.toJson_interpolate` — references are replaced in the JSON.
-/

set_option autoImplicit false

namespace DeployPlan

/-! ## Texts in JSON -/

namespace Json

mutual

/-- A value with each text in it replaced by another.  The keys of objects are no texts in it. -/
def mapTexts (f : String → String) : Json → Json
  | .str s => .str (f s)
  | .arr items => .arr (mapItemTexts f items)
  | .obj entries => .obj (mapEntryTexts f entries)
  | .null => .null
  | .bool b => .bool b
  | .int n => .int n
  | .float x => .float x

/-- The items of an array with their texts replaced. -/
def mapItemTexts (f : String → String) : List Json → List Json
  | [] => []
  | v :: vs => mapTexts f v :: mapItemTexts f vs

/-- The entries of an object with the texts in their values replaced. -/
def mapEntryTexts (f : String → String) : List (String × Json) → List (String × Json)
  | [] => []
  | (k, v) :: es => (k, mapTexts f v) :: mapEntryTexts f es

end

mutual

/-- Whether two values differ in their texts only: they have the same arrays and objects, arrays
have the same length, objects have the same keys in the same order, and other scalars are equal. -/
def SameShape : Json → Json → Prop
  | .null, .null => True
  | .bool a, .bool b => a = b
  | .int m, .int n => m = n
  | .float x, .float y => x = y
  | .str _, .str _ => True
  | .arr as, .arr bs => SameItems as bs
  | .obj as, .obj bs => SameEntries as bs
  | _, _ => False

/-- The same, item by item. -/
def SameItems : List Json → List Json → Prop
  | [], [] => True
  | a :: as, b :: bs => SameShape a b ∧ SameItems as bs
  | _, _ => False

/-- The same, entry by entry. -/
def SameEntries : List (String × Json) → List (String × Json) → Prop
  | [], [] => True
  | (k, a) :: as, (l, b) :: bs => k = l ∧ SameShape a b ∧ SameEntries as bs
  | _, _ => False

end

/-- Entries keep their keys. -/
theorem mapEntryTexts_eq_map (f : String → String) (entries : List (String × Json)) :
    mapEntryTexts f entries = entries.map fun e => (e.1, e.2.mapTexts f) := by
  induction entries with
  | nil => rfl
  | cons e entries ih => rw [mapEntryTexts, ih, List.map_cons]

/-- Of two entries with one key the later stays, whatever texts are in them. -/
theorem mapTexts_object (f : String → String) (entries : List (String × Json)) :
    (object entries).mapTexts f = object (mapEntryTexts f entries) := by
  rw [object, object, mapTexts, mapEntryTexts_eq_map, mapEntryTexts_eq_map,
    ← KeyMap.mapWithKey_ofList entries fun _ v => v.mapTexts f]
  rfl

mutual

/-- **New texts** leave the rest of a value as it is. -/
theorem sameShape_mapTexts (f : String → String) : ∀ v : Json, v.SameShape (v.mapTexts f)
  | .null | .str _ => trivial
  | .bool _ | .int _ | .float _ => rfl
  | .arr items => sameItems_mapItemTexts f items
  | .obj entries => sameEntries_mapEntryTexts f entries

/-- The same for the items of an array. -/
theorem sameItems_mapItemTexts (f : String → String) :
    ∀ items : List Json, SameItems items (mapItemTexts f items)
  | [] => trivial
  | v :: vs => ⟨sameShape_mapTexts f v, sameItems_mapItemTexts f vs⟩

/-- The same for the entries of an object. -/
theorem sameEntries_mapEntryTexts (f : String → String) :
    ∀ entries : List (String × Json), SameEntries entries (mapEntryTexts f entries)
  | [] => trivial
  | (_, v) :: es => ⟨rfl, sameShape_mapTexts f v, sameEntries_mapEntryTexts f es⟩

end

end Json

/-! ## References -/

namespace Yaml

namespace Value

open Interpolation (expand)

mutual

/-- **The JSON of a value with its references replaced** is its JSON with them replaced. -/
theorem toJson_interpolate (vars : Variables) :
    ∀ v : Value, (v.interpolate vars).toJson = v.toJson.mapTexts (expand vars)
  | .null | .bool _ | .int _ | .str _ => rfl
  | .float x => by
    rw [interpolate, toJson]
    split <;> rfl
  | .seq items => congrArg Json.arr (itemsToJson_interpolateItems vars items)
  | .map entries => by
    rw [interpolate, toJson, toJson, entriesToJson_interpolateEntries vars entries,
      Json.mapTexts_object]
  | .tagged _ v => toJson_interpolate vars v

/-- The same for the items of a sequence. -/
theorem itemsToJson_interpolateItems (vars : Variables) :
    ∀ items : List Value,
      itemsToJson (interpolateItems vars items) =
        Json.mapItemTexts (expand vars) (itemsToJson items)
  | [] => rfl
  | v :: vs =>
    congrArg₂ List.cons (toJson_interpolate vars v) (itemsToJson_interpolateItems vars vs)

/-- The same for the entries of a mapping, of which those without a key text are left out. -/
theorem entriesToJson_interpolateEntries (vars : Variables) :
    ∀ entries : List (Value × Value),
      entriesToJson (interpolateEntries vars entries) =
        Json.mapEntryTexts (expand vars) (entriesToJson entries)
  | [] => rfl
  | (k, v) :: es => by
    have ih := entriesToJson_interpolateEntries vars es
    rw [interpolateEntries, entriesToJson, entriesToJson]
    cases keyText? k with
    | none => exact ih
    | some key =>
      rw [Json.mapEntryTexts]
      exact congrArg₂ List.cons (congrArg (Prod.mk key) (toJson_interpolate vars v)) ih

end

/-- **References are replaced in the JSON**: a value with its references replaced becomes the JSON
of the value with the references in all its texts replaced, but not those in keys.  So the two
differ in their texts only. -/
theorem toJson_interpolate_and_sameShape (vars : Variables) (v : Value) :
    (v.interpolate vars).toJson = v.toJson.mapTexts (expand vars) ∧
      v.toJson.SameShape (v.interpolate vars).toJson := by
  refine ⟨toJson_interpolate vars v, ?_⟩
  rw [toJson_interpolate]
  exact v.toJson.sameShape_mapTexts (expand vars)

/-- A truth value and a text become one key here, under which the later entry stays. -/
example :
    let vars : Variables := { own := KeyMap.ofList [("ZONE", "1")] }
    (interpolate vars (.map [(.bool true, .str "$ZONE"),
      (.str "true", .tagged "t" (.str "eu-$ZONE")), (.str "$ZONE", .int 7)])).toJson =
        .obj [("$ZONE", .int 7), ("true", .str "eu-1")] := by
  cbv

end Value

end Yaml

end DeployPlan
