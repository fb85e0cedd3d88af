namespace SynthGraph

/-!
# Named entries

Entries are kept sorted by name, one entry a name, so that the same entries
always form the same list.
-/

/-- Values by name. -/
abbrev Entries (α : Type) := List (String × α)

namespace Entries

variable {α : Type}

/-- The names strictly increase along the list. -/
def Sorted (entries : Entries α) : Prop :=
  entries.Pairwise fun first second => first.1 < second.1

/-- The value of the entry with a name. -/
def get? (name : String) : Entries α → Option α
  | [] => none
  | (other, value) :: rest => if other = name then some value else get? name rest

/-- Give an entry a value, in its sorted place; an old value is replaced. -/
def insert (name : String) (value : α) : Entries α → Entries α
  | [] => [(name, value)]
  | (other, old) :: rest =>
      if name = other then
        (name, value) :: rest
      else if name < other then
        (name, value) :: (other, old) :: rest
      else
        (other, old) :: insert name value rest

/-- Give several entries their values, one after the other. -/
def insertAll (entries additions : Entries α) : Entries α :=
  additions.foldl (fun entries addition => insert addition.1 addition.2 entries) entries

/-- Entries collected from a list in any order; the last value of a name counts. -/
def ofList (additions : List (String × α)) : Entries α :=
  insertAll [] additions

/-- An inserted entry can be read back. -/
theorem get?_insert_self
    (name : String)
    (value : α)
    (entries : Entries α) :
    get? name (insert name value entries) = some value := by
  fun_induction insert name value entries with
  | case1 => simp [get?]
  | case2 => simp [get?]
  | case3 => simp [get?]
  | case4 other old rest different _ inductionHypothesis =>
      simp [get?, Ne.symm different, inductionHypothesis]

/-- Inserting an entry leaves the others as they are. -/
theorem get?_insert_of_ne
    {name other : String}
    (different : other ≠ name)
    (value : α)
    (entries : Entries α) :
    get? other (insert name value entries) = get? other entries := by
  fun_induction insert name value entries with
  | case1 => simp [get?, Ne.symm different]
  | case2 => simp [get?, Ne.symm different]
  | case3 => simp [get?, Ne.symm different]
  | case4 first old rest _ _ inductionHypothesis =>
      simp [get?, inductionHypothesis]

/-- The names after an insertion are the new name and the old ones. -/
theorem mem_insert
    {name : String}
    {value : α}
    {entries : Entries α}
    {entry : String × α}
    (member : entry ∈ insert name value entries) :
    entry = (name, value) ∨ entry ∈ entries := by
  fun_induction insert name value entries with
  | case1 => simpa using member
  | case2 rest =>
      rcases List.mem_cons.mp member with first | later
      · exact Or.inl first
      · exact Or.inr (List.mem_cons_of_mem _ later)
  | case3 =>
      rcases List.mem_cons.mp member with first | later
      · exact Or.inl first
      · exact Or.inr later
  | case4 other old rest _ _ inductionHypothesis =>
      rcases List.mem_cons.mp member with first | later
      · exact Or.inr (List.mem_cons.mpr (Or.inl first))
      · rcases inductionHypothesis later with new | present
        · exact Or.inl new
        · exact Or.inr (List.mem_cons_of_mem _ present)

/-- Of two different names one comes first. -/
private theorem lt_of_not_lt
    {name other : String}
    (different : ¬ name = other)
    (notBefore : ¬ name < other) :
    other < name := by
  have notAfter : other ≤ name := String.not_lt.mp notBefore
  rcases Classical.em (other < name) with before | after
  · exact before
  · exact absurd (String.le_antisymm (String.not_lt.mp after) notAfter) different

/-- Inserting keeps entries sorted. -/
theorem sorted_insert
    (name : String)
    (value : α)
    {entries : Entries α}
    (sorted : Sorted entries) :
    Sorted (insert name value entries) := by
  fun_induction insert name value entries with
  | case1 => simp [Sorted]
  | case2 rest =>
      unfold Sorted at sorted ⊢
      rw [List.pairwise_cons] at sorted ⊢
      exact sorted
  | case3 other old rest _ before =>
      have whole := sorted
      unfold Sorted at sorted ⊢
      rw [List.pairwise_cons] at sorted ⊢
      refine ⟨?_, whole⟩
      intro entry member
      rcases List.mem_cons.mp member with first | later
      · rw [first]
        exact before
      · exact String.lt_trans before (sorted.1 entry later)
  | case4 other old rest different notBefore inductionHypothesis =>
      unfold Sorted at sorted
      rw [List.pairwise_cons] at sorted
      unfold Sorted
      rw [List.pairwise_cons]
      refine ⟨?_, inductionHypothesis sorted.2⟩
      intro entry member
      rcases mem_insert member with new | present
      · rw [new]
        exact lt_of_not_lt different notBefore
      · exact sorted.1 entry present

/-- Inserting several entries keeps entries sorted. -/
theorem sorted_insertAll
    {entries : Entries α}
    (additions : Entries α)
    (sorted : Sorted entries) :
    Sorted (insertAll entries additions) := by
  unfold insertAll
  induction additions generalizing entries with
  | nil => exact sorted
  | cons addition rest inductionHypothesis =>
      exact inductionHypothesis (sorted_insert addition.1 addition.2 sorted)

/-- Collected entries are sorted. -/
theorem sorted_ofList (additions : List (String × α)) : Sorted (ofList additions) :=
  sorted_insertAll additions (by simp [Sorted])

end Entries

end SynthGraph
