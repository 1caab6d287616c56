import Tabular.Proofs.Json.Numbers
import Tabular.Proofs.Table.NestingDepth

/-!
# Values that are read again

What is read from the compact text of a value depends on the value alone: neither the depth at which
the value stands nor the text behind it matters. It need not be the value itself, since a float is
read from its digits with a rounding error.
-/

namespace Tabular.Json

/-- A value whose numbers are such as a text can hold: whole numbers of 64 bits, with a sign or
without one, and finite floats. -/
inductive Holdable : Json → Prop
  | null : Holdable .null
  | bool (b : Bool) : Holdable (.bool b)
  | int {n : Int} (low : -2 ^ 63 ≤ n) (high : n < 2 ^ 64) : Holdable (.int n)
  | float {x : Float} (finite : x.isFinite = true) : Holdable (.float x)
  | string (s : String) : Holdable (.string s)
  | array {items : List Json} (inner : ∀ item ∈ items, Holdable item) : Holdable (.array items)
  | object {members : List (String × Json)} (inner : ∀ member ∈ members, Holdable member.2) :
      Holdable (.object members)

/-- What the compact text of a value is read as. -/
def reread (value : Json) : Json :=
  (read value.compact).toOption.getD null

/-- The value is taken for the result at every depth that suffices for it. -/
def TakenAtDepths (value result : Json) : Prop :=
  ∀ depth, value.depth ≤ depth → TakenBy (readValue depth) value result

theorem exists_forall₂ {α β : Type} (related : α → β → Prop) {items : List α}
    (each : ∀ item ∈ items, ∃ result, related item result) :
    ∃ results, List.Forall₂ related items results := by
  induction items with
  | nil => exact ⟨[], .nil⟩
  | cons item items ih =>
    obtain ⟨here, later⟩ := List.forall_mem_cons.mp each
    obtain ⟨result, first⟩ := here
    obtain ⟨results, others⟩ := ih later
    exact ⟨result :: results, .cons first others⟩

theorem TakenAtDepths.array {items results : List Json}
    (taken : List.Forall₂ TakenAtDepths items results) :
    TakenAtDepths (.array items) (.array results) := by
  intro depth deep
  obtain ⟨depth, rfl⟩ := Nat.exists_eq_succ_of_ne_zero (Nat.ne_zero_of_lt deep)
  have inner := depth_array_le_iff.mp deep
  apply takenBy_array
  refine ((List.forall₂_and_left _ _).mpr ⟨inner, taken⟩).imp ?_
  rintro item result ⟨shallow, here⟩
  exact here depth shallow

theorem TakenAtDepths.object {members results : List (String × Json)}
    (taken : List.Forall₂ (fun member result => member.1 = result.1 ∧
      TakenAtDepths member.2 result.2) members results) :
    TakenAtDepths (.object members) (ofMembers results) := by
  intro depth deep
  obtain ⟨depth, rfl⟩ := Nat.exists_eq_succ_of_ne_zero (Nat.ne_zero_of_lt deep)
  have inner := depth_object_le_iff.mp deep
  apply takenBy_object
  refine ((List.forall₂_and_left _ _).mpr ⟨inner, taken⟩).imp ?_
  rintro member result ⟨shallow, same, here⟩
  exact ⟨same, here depth shallow⟩

/-- Every value is read again, and objects are read as objects. -/
theorem Holdable.exists_taken {value : Json} (holdable : Holdable value) :
    ∃ result, TakenAtDepths value result ∧ (value.isObject = true → result.isObject = true) := by
  induction holdable with
  | null => exact ⟨.null, fun _ _ => Textual.null.takenBy, id⟩
  | bool b => exact ⟨.bool b, fun _ _ => (Textual.bool b).takenBy, id⟩
  | int low high => exact ⟨_, fun depth _ => takenBy_int low high depth, id⟩
  | float finite =>
    obtain ⟨result, taken⟩ := exists_takenBy_float finite
    exact ⟨result, fun depth _ => taken depth, fun object => nomatch object⟩
  | string s => exact ⟨.string s, fun depth _ => takenBy_string depth s, id⟩
  | array _ ih =>
    obtain ⟨results, taken⟩ := exists_forall₂ TakenAtDepths fun item member =>
      (ih item member).imp fun _ both => both.1
    exact ⟨.array results, .array taken, fun object => nomatch object⟩
  | object _ ih =>
    obtain ⟨results, taken⟩ := exists_forall₂
      (fun (member result : String × Json) => member.1 = result.1 ∧
        TakenAtDepths member.2 result.2) fun member inside => by
      obtain ⟨result, here, -⟩ := ih member inside
      exact ⟨(member.1, result), rfl, here⟩
    exact ⟨ofMembers results, .object taken, fun _ => rfl⟩

theorem TakenBy.read_compact {value result : Json}
    (taken : TakenBy (readValue depthLimit) value result) : read value.compact = .ok result := by
  have whole := taken.taken [] endsNumber_nil
  rw [List.append_nil] at whole
  rw [read, readWhole, compact, String.toList_ofList, whole]
  rfl

section

variable {value : Json} (holdable : Holdable value) (shallow : value.depth ≤ depthLimit)

include holdable shallow

theorem takenAtDepths_reread :
    TakenAtDepths value value.reread ∧ (value.isObject = true → value.reread.isObject = true) := by
  obtain ⟨result, taken, object⟩ := holdable.exists_taken
  have same : value.reread = result := by
    rw [reread, (taken depthLimit shallow).read_compact]
    rfl
  rw [same]
  exact ⟨taken, object⟩

theorem read_compact_eq_reread : read value.compact = .ok value.reread :=
  ((takenAtDepths_reread holdable shallow).1 depthLimit shallow).read_compact

end

theorem read_compact_array {items : List Json} (holdable : ∀ item ∈ items, Holdable item)
    (shallow : ∀ item ∈ items, item.depth < depthLimit) :
    read (array items).compact = .ok (array (items.map reread)) := by
  apply TakenBy.read_compact
  apply TakenAtDepths.array
  · rw [List.forall₂_map_right_iff]
    exact List.forall₂_same.mpr fun item member =>
      (takenAtDepths_reread (holdable item member) (shallow item member).le).1
  · exact depth_array_le_iff.mpr fun item member => Nat.le_of_lt_succ (shallow item member)

end Tabular.Json
