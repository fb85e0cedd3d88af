import SynthGraph.Proofs.Entries
import SynthGraph.Unit

namespace SynthGraph

/-!
# Documents up to the order of what is combined

Documents are alike if they differ in the order of combined items only, at any
depth.  Writing alike parts into documents gives alike documents.
-/

/-- The elements of one list are related, in some order, to those of another. -/
def Shuffled {α : Type} (related : α → α → Prop) (first second : List α) : Prop :=
  ∃ middle, List.Forall₂ related first middle ∧ middle.Perm second

namespace Shuffled

variable {α β : Type} {related : α → α → Prop} {first second : List α}

theorem length_eq
    (shuffled : Shuffled related first second) :
    first.length = second.length := by
  obtain ⟨middle, sameOrder, permuted⟩ := shuffled
  exact sameOrder.length_eq.trans permuted.length_eq

/-- Lists that are mapped from the same elements in two orders. -/
theorem of_perm
    {elements others : List β}
    (permuted : elements.Perm others)
    {toFirst toSecond : β → α}
    (each : ∀ element ∈ elements, related (toFirst element) (toSecond element)) :
    Shuffled related (elements.map toFirst) (others.map toSecond) := by
  refine ⟨elements.map toSecond, ?_, permuted.map toSecond⟩
  rw [List.forall₂_map_left_iff, List.forall₂_map_right_iff, List.forall₂_same]
  exact each

/-- What is read from related elements is related in the same order. -/
theorem filterMap
    (shuffled : Shuffled related first second)
    {read : α → Option β}
    {readRelated : β → β → Prop}
    (reads :
      ∀ element other, related element other →
        Option.Rel readRelated (read element) (read other)) :
    Shuffled readRelated (first.filterMap read) (second.filterMap read) := by
  obtain ⟨middle, sameOrder, permuted⟩ := shuffled
  refine ⟨middle.filterMap read, ?_, permuted.filterMap read⟩
  clear permuted
  induction sameOrder with
  | nil =>
      exact .nil
  | @cons element other _ _ isRelated _ inductionHypothesis =>
      have readAlike := reads element other isRelated
      rw [List.filterMap_cons, List.filterMap_cons]
      generalize read element = first at readAlike ⊢
      generalize read other = second at readAlike ⊢
      cases readAlike with
      | none =>
          exact inductionHypothesis
      | some isAlike =>
          exact .cons isAlike inductionHypothesis

end Shuffled

namespace Document

mutual

/-- Two documents differ in the order of combined items only. -/
inductive Alike : Document → Document → Prop where
  | refl (document : Document) : Alike document document
  | object {fields others : List (String × Document)} :
      List.Forall₂ AlikeEntry fields others → Alike (.object fields) (.object others)

/-- Two fields of one name differ so; combined items may stand in another order. -/
inductive AlikeEntry : String × Document → String × Document → Prop where
  | same (name : String) {value other : Document} :
      Alike value other → AlikeEntry (name, value) (name, other)
  | combined {items middle others : List Document} :
      List.Forall₂ Alike items middle → middle.Perm others →
        AlikeEntry ("combined", .list items) ("combined", .list others)

end

/-- Fields that differ in the order of combined items only. -/
abbrev AlikeFields : Fields → Fields → Prop :=
  List.Forall₂ AlikeEntry

theorem AlikeEntry.name_eq
    {entry other : String × Document}
    (alike : AlikeEntry entry other) :
    entry.1 = other.1 := by
  cases alike <;> rfl

theorem AlikeFields.refl
    (fields : Fields) :
    AlikeFields fields fields :=
  List.forall₂_same.mpr fun entry _ => .same entry.1 (.refl entry.2)

section Writing

variable {fields others : Fields}

/-- Alike fields are inserted at the same place. -/
theorem AlikeFields.insert
    (alike : AlikeFields fields others)
    {entry other : String × Document}
    (alikeEntry : AlikeEntry entry other) :
    AlikeFields
      (Entries.insert entry.1 entry.2 fields) (Entries.insert other.1 other.2 others) := by
  obtain ⟨added, value⟩ := entry
  obtain ⟨otherAdded, otherValue⟩ := other
  obtain rfl : added = otherAdded := alikeEntry.name_eq
  induction alike with
  | nil =>
      exact .cons alikeEntry .nil
  | @cons first second rest otherRest alikeFirst alikeRest inductionHypothesis =>
      obtain ⟨name, old⟩ := first
      obtain ⟨otherName, otherOld⟩ := second
      obtain rfl : name = otherName := alikeFirst.name_eq
      simp only [Entries.insert]
      split
      · exact .cons alikeEntry alikeRest
      · split
        · exact .cons alikeEntry (.cons alikeFirst alikeRest)
        · exact .cons alikeFirst inductionHypothesis

theorem AlikeFields.insertAll
    (alike : AlikeFields fields others)
    {additions otherAdditions : Fields}
    (alikeAdditions : AlikeFields additions otherAdditions) :
    AlikeFields
      (Entries.insertAll fields additions) (Entries.insertAll others otherAdditions) := by
  induction alikeAdditions generalizing fields others with
  | nil =>
      exact alike
  | cons alikeFirst _ inductionHypothesis =>
      exact inductionHypothesis (alike.insert alikeFirst)

theorem AlikeFields.merge
    (alike : AlikeFields fields others)
    {source other : Document}
    (alikeSource : source.Alike other) :
    AlikeFields (fields.merge source) (others.merge other) := by
  cases alikeSource with
  | refl =>
      cases source with
      | object additions =>
          exact alike.insertAll (.refl additions)
      | null | bool | integer | float | text | list =>
          exact alike
  | object alikeAdditions =>
      exact alike.insertAll alikeAdditions

theorem AlikeFields.merge?
    (alike : AlikeFields fields others)
    {source other : Option Document}
    (alikeSource : Option.Rel Alike source other) :
    AlikeFields (fields.merge? source) (others.merge? other) := by
  cases alikeSource with
  | none =>
      exact alike
  | some alikeSource =>
      exact alike.merge alikeSource

theorem AlikeFields.keyed
    (alike : AlikeFields fields others)
    (key : String) :
    (Document.keyed key fields).Alike (.keyed key others) :=
  .object (.cons (.same key (.object alike)) .nil)

/-- Documents in two orders are alike in one. -/
theorem alike_resolve?
    {documents others : List Document}
    (shuffled : Shuffled Alike documents others) :
    Option.Rel Alike (resolve? documents) (resolve? others) := by
  have sameLength := shuffled.length_eq
  obtain ⟨middle, sameOrder, permuted⟩ := shuffled
  match documents, others, sameLength with
  | [], [], _ =>
      exact .none
  | [document], [other], _ =>
      obtain rfl := List.perm_singleton.mp permuted
      exact .some (List.forall₂_cons.mp sameOrder).1
  | _ :: _ :: _, _ :: _ :: _, _ =>
      exact .some (.object (.cons (.combined sameOrder permuted) .nil))

end Writing

end Document

/-- Emissions that add nothing, or documents that are alike. -/
inductive Emission.Alike : Emission → Emission → Prop where
  | nothing : Alike .nothing .nothing
  | document {content other : Document} :
      content.Alike other → Alike (.document content) (.document other)

theorem Emission.Alike.document?
    {emission other : Emission}
    (alike : emission.Alike other) :
    Option.Rel Document.Alike emission.document? other.document? := by
  cases alike with
  | nothing =>
      exact .none
  | document alikeContent =>
      exact .some alikeContent

end SynthGraph
