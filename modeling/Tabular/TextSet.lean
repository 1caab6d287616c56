/-!
# Sets of texts

Distinct texts in the order in which they first came.
-/

namespace Tabular

structure TextSet where
  toList : List String
  nodup : toList.Nodup := by decide
  deriving DecidableEq

namespace TextSet

def empty : TextSet where
  toList := []
  nodup := List.nodup_nil

def insert (set : TextSet) (text : String) : TextSet :=
  if h : text ∈ set.toList then set
  else
    { toList := set.toList ++ [text]
      nodup := List.nodup_append.mpr
        ⟨set.nodup, by simp, fun a ha b hb => by
          rw [List.mem_singleton] at hb
          subst hb
          exact fun same => h (same ▸ ha)⟩ }

def ofList (texts : List String) : TextSet :=
  texts.foldl insert empty

def size (set : TextSet) : Nat :=
  set.toList.length

def isEmpty (set : TextSet) : Bool :=
  set.toList.isEmpty

def joined (set : TextSet) (joiner : String) : String :=
  joiner.intercalate set.toList

theorem mem_insert {set : TextSet} {text other : String} :
    other ∈ (set.insert text).toList ↔ other ∈ set.toList ∨ other = text := by
  unfold insert
  split
  · rename_i present
    exact ⟨Or.inl, fun h => h.elim id (fun same => same ▸ present)⟩
  · simp

theorem mem_foldl_insert {set : TextSet} {texts : List String} {text : String} :
    text ∈ (texts.foldl insert set).toList ↔ text ∈ set.toList ∨ text ∈ texts := by
  induction texts generalizing set with
  | nil => simp
  | cons first texts ih => rw [List.foldl_cons, ih, mem_insert, List.mem_cons, or_assoc]

theorem mem_ofList {texts : List String} {text : String} :
    text ∈ (ofList texts).toList ↔ text ∈ texts := by
  rw [ofList, mem_foldl_insert]
  simp [empty]

end TextSet

end Tabular
