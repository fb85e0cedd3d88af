import Mathlib
import SynthGraph.Entries

namespace SynthGraph.Entries

/-!
# Reading entries

In sorted entries a name stands once, so every entry is found under its name.
Collecting entries of different names loses none of them (`get?_ofList`), and
entries are only ever replaced by others of their names (`perm_insertAll`).
-/

variable {α : Type} {entries additions : Entries α} {name : String} {value : α}

theorem mem_of_get?
    (found : get? name entries = some value) :
    (name, value) ∈ entries := by
  fun_induction get? name entries with
  | case1 =>
      cases found
  | case2 present rest =>
      obtain rfl := Option.some.inj found
      exact List.mem_cons_self
  | case3 other present rest _ inductionHypothesis =>
      exact List.mem_cons_of_mem _ (inductionHypothesis found)

theorem names_nodup
    (sorted : Sorted entries) :
    (entries.map Prod.fst).Nodup := by
  rw [List.Nodup, List.pairwise_map]
  exact List.Pairwise.imp (fun before => String.ne_of_lt before) sorted

/-- An entry is found under its name. -/
theorem get?_of_mem
    (namesNodup : (entries.map Prod.fst).Nodup)
    (member : (name, value) ∈ entries) :
    get? name entries = some value := by
  induction entries with
  | nil =>
      cases member
  | cons entry rest inductionHypothesis =>
      rw [List.map_cons, List.nodup_cons] at namesNodup
      rcases List.mem_cons.mp member with rfl | later
      · simp [get?]
      · have different : entry.1 ≠ name := by
          intro sameName
          exact namesNodup.1 (sameName ▸ List.mem_map_of_mem (f := Prod.fst) later)
        rw [get?, if_neg different]
        exact inductionHypothesis namesNodup.2 later

theorem get?_insertAll_of_notMem
    (absent : name ∉ additions.map Prod.fst)
    (entries : Entries α) :
    get? name (insertAll entries additions) = get? name entries := by
  induction additions generalizing entries with
  | nil =>
      rfl
  | cons addition rest inductionHypothesis =>
      rw [List.map_cons, List.mem_cons, not_or] at absent
      have later := inductionHypothesis absent.2 (insert addition.1 addition.2 entries)
      rw [get?_insert_of_ne absent.1] at later
      exact later

/-- Additions of different names are all found. -/
theorem get?_ofList
    (namesNodup : (additions.map Prod.fst).Nodup)
    (member : (name, value) ∈ additions) :
    get? name (ofList additions) = some value := by
  have found (entries : Entries α) : get? name (insertAll entries additions) = some value := by
    induction additions generalizing entries with
    | nil =>
        cases member
    | cons addition rest inductionHypothesis =>
        rw [List.map_cons, List.nodup_cons] at namesNodup
        rcases List.mem_cons.mp member with rfl | later
        · have kept := get?_insertAll_of_notMem namesNodup.1 (insert name value entries)
          rw [get?_insert_self] at kept
          exact kept
        · exact inductionHypothesis namesNodup.2 later (insert addition.1 addition.2 entries)
  exact found []

/-- The value that is written last counts. -/
theorem insert_insert
    (name : String)
    (value other : α)
    (entries : Entries α) :
    insert name value (insert name other entries) = insert name value entries := by
  fun_induction insert name other entries with
  | case1 =>
      simp [insert]
  | case2 =>
      simp [insert]
  | case3 first old rest different before =>
      simp [insert, different, before]
  | case4 first old rest different notBefore inductionHypothesis =>
      simp [insert, different, notBefore, inductionHypothesis]

theorem mem_insertAll
    {entry : String × α}
    (member : entry ∈ insertAll entries additions) :
    entry ∈ entries ∨ entry ∈ additions := by
  induction additions generalizing entries with
  | nil =>
      exact Or.inl member
  | cons addition rest inductionHypothesis =>
      rcases inductionHypothesis member with inserted | later
      · rcases mem_insert inserted with new | present
        · exact Or.inr (List.mem_cons.mpr (Or.inl new))
        · exact Or.inl present
      · exact Or.inr (List.mem_cons_of_mem _ later)

theorem mem_of_mem_ofList
    {entry : String × α}
    (member : entry ∈ ofList additions) :
    entry ∈ additions := by
  rcases mem_insertAll member with present | added
  · cases present
  · exact added

/-- An entry with a new name stands beside the others. -/
theorem perm_insert
    (new : name ∉ entries.map Prod.fst)
    (value : α) :
    (insert name value entries).Perm ((name, value) :: entries) := by
  fun_induction insert name value entries with
  | case1 =>
      exact .refl _
  | case2 =>
      simp at new
  | case3 =>
      exact .refl _
  | case4 other old rest _ _ inductionHypothesis =>
      rw [List.map_cons, List.mem_cons, not_or] at new
      exact ((inductionHypothesis new.2).cons _).trans (.swap _ _ _)

/-- Entries with new names stand beside the others. -/
theorem perm_insertAll
    (namesNodup : ((entries ++ additions).map Prod.fst).Nodup) :
    (insertAll entries additions).Perm (entries ++ additions) := by
  induction additions generalizing entries with
  | nil =>
      rw [List.append_nil]
      exact .refl _
  | cons addition rest inductionHypothesis =>
      have moved : (entries ++ addition :: rest).Perm (addition :: entries ++ rest) :=
        List.perm_middle
      have movedNodup := (moved.map Prod.fst).nodup_iff.mp namesNodup
      have new : addition.1 ∉ entries.map Prod.fst := by
        rw [List.cons_append, List.map_cons, List.nodup_cons, List.map_append,
          List.mem_append, not_or] at movedNodup
        exact movedNodup.1.1
      have inserted := (perm_insert new addition.2).append_right rest
      have later := inductionHypothesis ((inserted.map Prod.fst).nodup_iff.mpr movedNodup)
      exact (later.trans inserted).trans moved.symm

theorem perm_ofList
    (namesNodup : (additions.map Prod.fst).Nodup) :
    (ofList additions).Perm additions :=
  perm_insertAll namesNodup

/-- Entries that are sorted already are collected as they are. -/
theorem ofList_of_sorted
    {entries : Entries α}
    (sorted : Sorted entries) :
    ofList entries = entries := by
  have namesNodup : (entries.map Prod.fst).Nodup := by
    refine (List.pairwise_map.mpr sorted).imp ?_
    intro first second before
    exact (String.ne_of_lt before)
  refine (perm_ofList namesNodup).eq_of_pairwise ?_ (sorted_ofList entries) sorted
  intro first second _ _ before after
  exact absurd (String.lt_trans before after) (String.lt_irrefl _)

end SynthGraph.Entries
