import PortGraph.Proofs.Json.Decode
import PortGraph.Proofs.Number.Binary
import PortGraph.Value.Config

/-!
# What configurations keep

Data that is read back from a configuration is what was kept there (`DataKind.decode_toJson`),
unless it has infinities or NaN in it, which are kept as null.
-/

set_option autoImplicit false

namespace PortGraph

/-! ## Data that can be kept -/

/-- Whether a number is neither an infinity nor NaN. -/
def Element.isFinite : (e : Element) → e.Carrier → Bool
  | .float, x => x.isFinite
  | .int, _ => true

/-- Whether all numbers in data are finite. -/
def DataKind.isFinite : (k : DataKind) → k.Carrier → Bool
  | .scalar e, x => e.isFinite x
  | .bool, _ => true
  | .text, _ => true
  | .list e, xs => xs.all e.isFinite

/-! ## Reading back -/

/-- A finite number is read back. -/
theorem Element.decode_toJson {e : Element} {x : e.Carrier} (h : e.isFinite x = true) :
    e.decode (e.toJson x) = .ok x := by
  cases e with
  | int => exact Json.Decoder.int64_toInt x
  | float =>
    have hkept : Element.float.toJson x = .float (widen x) := if_pos (isFinite_widen h)
    rw [hkept]
    exact congrArg Except.ok (narrow_widen h)

/-- **Data is read back as it was kept.** -/
theorem DataKind.decode_toJson {k : DataKind} {x : k.Carrier} (h : k.isFinite x = true) :
    k.decode (k.toJson x) = .ok x := by
  cases k with
  | scalar e => exact Element.decode_toJson h
  | bool => rfl
  | text => rfl
  | list e =>
    have hitems : Json.Decoder.items e.decode (x.map e.toJson) = .ok (x.map id) :=
      Json.Decoder.items_map fun y hy ↦ Element.decode_toJson (List.all_eq_true.mp h y hy)
    rwa [List.map_id] at hitems

/-- A configuration of one field is read as what is in it. -/
theorem DataKind.record_asRecord (k : DataKind) (title field : String) (j : Json) :
    Json.Decoder.record (k.asRecord title field) (.object [(field, j)]) = k.decode j := by
  cases h : k.decode j <;>
    simp [Json.Decoder.record, Json.Decoder.named, asRecord, Record.field?, Record.missing?, h,
      Except.map]

/-- A configuration of one field is read back. -/
theorem DataKind.decode_asRecord {k : DataKind} {x : k.Carrier} (h : k.isFinite x = true)
    (title field : String) :
    Json.Decoder.record (k.asRecord title field) (.object [(field, k.toJson x)]) = .ok x :=
  (k.record_asRecord title field _).trans (decode_toJson h)

/-! ## Canonical form -/

theorem Element.canonical_toJson {e : Element} (x : e.Carrier) :
    (e.toJson x).canonical = e.toJson x := by
  cases e with
  | int => rfl
  | float =>
    rw [toJson, Json.ofFloat]
    split <;> rfl

/-- Kept data is in canonical form. -/
theorem DataKind.canonical_toJson {k : DataKind} (x : k.Carrier) :
    (k.toJson x).canonical = k.toJson x := by
  cases k with
  | scalar e => exact Element.canonical_toJson x
  | bool => rfl
  | text => rfl
  | list e =>
    rw [toJson, Json.canonical, Json.canonicalItems_eq_map, List.map_map]
    refine congrArg Json.array (List.map_congr_left fun y _ ↦ ?_)
    exact Element.canonical_toJson y

/-- A configuration of one field is in canonical form. -/
theorem DataKind.canonical_asRecord {k : DataKind} (x : k.Carrier) (field : String) :
    (Json.object [(field, k.toJson x)]).canonical = .object [(field, k.toJson x)] := by
  rw [Json.canonical, Json.canonicalMembers, Json.canonicalMembers, canonical_toJson]
  rfl

end PortGraph
