import Scenery.Graph.Basic
import Std.Data.HashSet

/-!
# Node sets

A set of nodes that remembers in which order its nodes were first put in.  Main
statement: putting in a list of nodes keeps the first occurrence of each.
-/

namespace Scenery

/-- The nodes of a set in the order of their first insertion, and an index of them. -/
structure NodeSet where
  order : Array NodeId
  index : Std.HashSet NodeId
  mem_index_iff : ∀ id, id ∈ index ↔ id ∈ order

namespace NodeSet

def empty : NodeSet := ⟨#[], ∅, by simp⟩

/-- The nodes in the order of their first insertion. -/
def toList (set : NodeSet) : List NodeId :=
  set.order.toList

/-- Put in a node, behind all nodes that are in already. -/
def insert (set : NodeSet) (id : NodeId) : NodeSet :=
  if id ∈ set.index then
    set
  else
    { order := set.order.push id
      index := set.index.insert id
      mem_index_iff := by
        intro other
        rw [Std.HashSet.mem_insert, set.mem_index_iff, Array.mem_push, beq_iff_eq]
        constructor
        · rintro (rfl | h)
          · exact Or.inr rfl
          · exact Or.inl h
        · rintro (h | rfl)
          · exact Or.inr h
          · exact Or.inl rfl }

def ofList (ids : List NodeId) : NodeSet :=
  ids.foldl insert empty

@[simp] theorem toList_empty : empty.toList = [] := rfl

theorem toList_insert (set : NodeSet) (id : NodeId) :
    (set.insert id).toList =
      if id ∈ set.toList then set.toList else set.toList ++ [id] := by
  have hmem : id ∈ set.index ↔ id ∈ set.toList := by
    rw [set.mem_index_iff, toList, Array.mem_toList_iff]
  by_cases h : id ∈ set.index
  · simp [insert, h, hmem.mp h]
  · have hlist : id ∉ set.toList := fun hin => h (hmem.mpr hin)
    rw [insert, if_neg h, if_neg hlist]
    simp [toList]

theorem toList_foldl_insert (ids : List NodeId) (set : NodeSet) :
    (ids.foldl insert set).toList =
      set.toList ++ (ids.filter (fun id => !set.toList.contains id)).eraseDups := by
  induction ids generalizing set with
  | nil => simp
  | cons id rest ih =>
      rw [List.foldl_cons, ih, toList_insert]
      by_cases h : id ∈ set.toList
      · simp [h]
      · rw [if_neg h, List.filter_cons_of_pos (by simpa using h), List.eraseDups_cons,
          List.append_assoc, List.singleton_append, List.filter_filter]
        congr 3
        apply List.filter_congr
        intro other _
        by_cases hother : other = id <;> simp [hother]

/-- Of each node in a list the first occurrence is kept. -/
theorem toList_ofList (ids : List NodeId) : (ofList ids).toList = ids.eraseDups := by
  have hall : ids.filter (fun _ => true) = ids := List.filter_eq_self.mpr (by simp)
  simp [ofList, toList_foldl_insert, hall]

end NodeSet

end Scenery
