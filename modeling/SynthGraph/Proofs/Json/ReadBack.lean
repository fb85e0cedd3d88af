import SynthGraph.Json.Record
import SynthGraph.Proofs.Json.Tokens

namespace SynthGraph.Json

/-!
# Written trees are read back

A tree is written as the characters of its tokens with blanks between them, and
the reader's machine makes the same tree of these tokens.  Both halves follow
the tree: the items of a list and the fields of an object come one by one
behind the first.

Main statement: `Json.read?_prettyText`.
-/

/-- No text in a tree lacks a character, and no field lacks its name. -/
inductive Complete : Json → Prop where
  | null : Complete null
  | bool (value : Bool) : Complete (bool value)
  | number (numeral : Numeral) : Complete (number numeral)
  | string (content : String) : Complete (string content)
  | list (items : List Json) (each : ∀ item ∈ items, Complete item) : Complete (list items)
  | record (fields : List (String × Json)) (each : ∀ field ∈ fields, Complete field.2) :
      Complete (record fields)

/-- A written number is complete, whether or not a numeral stands for it. -/
theorem complete_ofBinary
    {format : Format}
    (layout : Layout)
    (number : Binary format) :
    (ofBinary layout number).Complete := by
  cases number with
  | finite value => exact .number _
  | infinite | notANumber => exact .null

/-- A record is complete if every field that is there is. -/
theorem complete_present
    {fields : List (String × Option Json)}
    (each : ∀ field ∈ fields, ∀ value ∈ field.2, Complete value) :
    (record (Record.present fields)).Complete := by
  refine .record _ fun field member => ?_
  obtain ⟨declared, declaredMember, written⟩ := List.mem_filterMap.mp member
  obtain ⟨value, isThere, rfl⟩ := Option.map_eq_some_iff.mp written
  exact each declared declaredMember value isThere

mutual

/-- The tokens of a value. -/
def tokens : Json → List Token
  | null => [.null]
  | bool value => [.bool value]
  | number numeral => [.number numeral]
  | text content => [.text content]
  | list [] => [.openList, .closeList]
  | list (item :: rest) => .openList :: (tokens item ++ (itemTokens rest ++ [.closeList]))
  | object [] => [.openObject, .closeObject]
  | object ((name, value) :: rest) =>
      .openObject :: .text name :: .colon ::
        (tokens value ++ (fieldTokens rest ++ [.closeObject]))

/-- The tokens of the items after the first one. -/
def itemTokens : List Json → List Token
  | [] => []
  | item :: rest => .comma :: (tokens item ++ itemTokens rest)

/-- The tokens of the fields after the first one. -/
def fieldTokens : List (Option String × Json) → List Token
  | [] => []
  | (name, value) :: rest => .comma :: .text name :: .colon :: (tokens value ++ fieldTokens rest)

end

section Scanning

variable {level : Nat}

/-- A line break does not continue a word. -/
private theorem endsWord_lineBreak (rest : List Char) :
    Token.EndsWord (lineBreak level ++ rest) :=
  .cons (by decide) _

/-- A line break is passed over. -/
private theorem spells_lineBreak
    {chars : List Char}
    {tokens : List Token}
    (spells : Token.Spells chars tokens) :
    Token.Spells (lineBreak level ++ chars) tokens := by
  have blanks : ∀ count, Token.Spells (List.replicate count ' ' ++ chars) tokens := by
    intro count
    induction count with
    | zero => exact spells
    | succ count inductionHypothesis => exact .blank (by decide) inductionHypothesis
  exact .blank (by decide) (blanks _)

/-- Further items do not continue a word. -/
private theorem endsWord_prettyItems (items : List Json) :
    Token.EndsWord (prettyItems level items) := by
  cases items with
  | nil => simp [prettyItems, Token.EndsWord]
  | cons item rest =>
      rw [prettyItems]
      exact .cons (by decide) _

/-- Further fields do not continue a word. -/
private theorem endsWord_prettyFields (fields : List (Option String × Json)) :
    Token.EndsWord (prettyFields level fields) := by
  cases fields with
  | nil => simp [prettyFields, Token.EndsWord]
  | cons field rest =>
      rw [prettyFields]
      exact .cons (by decide) _

/-- Items after the first one are spelled like their tokens if each item is. -/
private theorem spells_prettyItems
    {items : List Json}
    (each : ∀ item ∈ items, Token.Spells (item.pretty level) item.tokens) :
    Token.Spells (prettyItems level items) (itemTokens items) := by
  induction items with
  | nil => exact fun rest _ => by simp [prettyItems, itemTokens]
  | cons item items inductionHypothesis =>
      rw [prettyItems, itemTokens, List.cons_append, List.cons_append, List.append_assoc]
      refine .mark (by decide) (spells_lineBreak ?_)
      refine (each item List.mem_cons_self).append (endsWord_prettyItems items) ?_
      exact inductionHypothesis fun other member => each other (List.mem_cons_of_mem _ member)

/-- One field is spelled like its tokens if its value is. -/
private theorem spells_field
    {name : String}
    {value : List Char}
    {valueTokens : List Token}
    (spells : Token.Spells value valueTokens) :
    Token.Spells
      ((Token.text (some name)).chars ++ ':' :: ' ' :: value)
      (.text (some name) :: .colon :: valueTokens) := by
  refine (Token.spells_chars (.text (some name)) (by simp)).append (.cons (by decide) _) ?_
  exact .mark (by decide) (.blank (by decide) spells)

/-- Fields after the first one are spelled like their tokens if each value is. -/
private theorem spells_prettyFields
    {fields : List (String × Json)}
    (each : ∀ field ∈ fields, Token.Spells (field.2.pretty level) field.2.tokens) :
    Token.Spells
      (prettyFields level (fields.map fun field => (some field.1, field.2)))
      (fieldTokens (fields.map fun field => (some field.1, field.2))) := by
  induction fields with
  | nil => exact fun rest _ => by simp [prettyFields, fieldTokens]
  | cons field fields inductionHypothesis =>
      rw [List.map_cons, prettyFields, fieldTokens]
      simp only [List.cons_append, List.append_assoc]
      refine .mark (by decide) (spells_lineBreak (spells_field ?_))
      refine (each field List.mem_cons_self).append (endsWord_prettyFields _) ?_
      exact inductionHypothesis fun other member => each other (List.mem_cons_of_mem _ member)

/-- A complete tree is written as its tokens. -/
theorem spells_pretty
    {value : Json}
    (complete : value.Complete)
    (level : Nat) :
    Token.Spells (value.pretty level) value.tokens := by
  induction complete generalizing level with
  | null => exact Token.spells_chars .null (by simp)
  | bool value => exact Token.spells_chars (.bool value) (by simp)
  | number numeral => exact Token.spells_chars (.number numeral) (by simp)
  | string content => exact Token.spells_chars (.text (some content)) (by simp)
  | list items _ inductionHypothesis =>
      have close : Token.Spells [']'] [.closeList] := Token.spells_chars .closeList (by simp)
      cases items with
      | nil => exact .mark (by decide) close
      | cons item rest =>
          rw [pretty, tokens]
          simp only [List.cons_append, List.append_assoc]
          refine .mark (by decide) (spells_lineBreak ?_)
          refine (inductionHypothesis item List.mem_cons_self _).append
            ((endsWord_prettyItems rest).append (endsWord_lineBreak _)) ?_
          refine (spells_prettyItems fun other member =>
            inductionHypothesis other (List.mem_cons_of_mem _ member) _).append
            (endsWord_lineBreak _) ?_
          exact spells_lineBreak close
  | record fields _ inductionHypothesis =>
      have close : Token.Spells ['}'] [.closeObject] := Token.spells_chars .closeObject (by simp)
      cases fields with
      | nil => exact .mark (by decide) close
      | cons field rest =>
          rw [record, List.map_cons, pretty, tokens]
          simp only [List.cons_append, List.append_assoc]
          refine .mark (by decide) (spells_lineBreak (spells_field ?_))
          refine (inductionHypothesis field List.mem_cons_self _).append
            ((endsWord_prettyFields _).append (endsWord_lineBreak _)) ?_
          refine (spells_prettyFields fun other member =>
            inductionHypothesis other (List.mem_cons_of_mem _ member) _).append
            (endsWord_lineBreak _) ?_
          exact spells_lineBreak close

end Scanning

namespace Reader

variable {frames : List Frame}

/-- A first item is read like any other value. -/
private theorem foldlM_firstItem
    (value : Json)
    (before : List Json) :
    value.tokens.foldlM step (.reading .firstItem (.items before :: frames))
      = value.tokens.foldlM step (.reading .value (.items before :: frames)) := by
  cases value with
  | null | bool | number | text => rfl
  | list items => cases items <;> rfl
  | object fields => cases fields <;> rfl

/-- Further items are read up to the end of their list, if each item is read. -/
private theorem foldlM_itemTokens
    {items : List Json}
    (each : ∀ item ∈ items, ∀ frames,
      item.tokens.foldlM step (.reading .value frames) = finish item frames)
    (before : List Json) :
    (itemTokens items ++ [Token.closeList]).foldlM step
        (.reading .separator (.items before :: frames))
      = finish (.list (before.reverse ++ items)) frames := by
  induction items generalizing before with
  | nil =>
      rw [itemTokens, List.nil_append, List.append_nil, List.foldlM_cons]
      simp [step]
  | cons item items inductionHypothesis =>
      have first := each item List.mem_cons_self (.items before :: frames)
      have others := inductionHypothesis
        (fun other member => each other (List.mem_cons_of_mem _ member)) (item :: before)
      rw [List.reverse_cons, List.append_assoc, List.singleton_append] at others
      rw [itemTokens, List.cons_append, List.append_assoc, List.foldlM_cons]
      simp only [step, Option.bind_eq_bind, Option.bind_some]
      rw [List.foldlM_append, first]
      exact others

/-- Further fields are read up to the end of their object, if each value is read. -/
private theorem foldlM_fieldTokens
    {fields : List (Option String × Json)}
    (each : ∀ field ∈ fields, ∀ frames,
      field.2.tokens.foldlM step (.reading .value frames) = finish field.2 frames)
    (before : List (Option String × Json)) :
    (fieldTokens fields ++ [Token.closeObject]).foldlM step
        (.reading .separator (.fields before :: frames))
      = finish (.object (before.reverse ++ fields)) frames := by
  induction fields generalizing before with
  | nil =>
      rw [fieldTokens, List.nil_append, List.append_nil, List.foldlM_cons]
      simp [step]
  | cons field fields inductionHypothesis =>
      have first := each field List.mem_cons_self (.field before field.1 :: frames)
      have others := inductionHypothesis
        (fun other member => each other (List.mem_cons_of_mem _ member)) (field :: before)
      rw [List.reverse_cons, List.append_assoc, List.singleton_append] at others
      rw [fieldTokens, List.cons_append, List.cons_append, List.cons_append, List.append_assoc]
      simp only [List.foldlM_cons, step, Option.bind_eq_bind, Option.bind_some]
      rw [List.foldlM_append, first]
      exact others

/-- The machine makes a value of its tokens, whatever is open around it. -/
theorem foldlM_tokens
    {value : Json}
    (complete : value.Complete)
    (frames : List Frame) :
    value.tokens.foldlM step (.reading .value frames) = finish value frames := by
  induction complete generalizing frames with
  | null | bool | number | string =>
      simp [tokens, Json.string, step, startValue]
  | list items _ inductionHypothesis =>
      cases items with
      | nil => simp [tokens, step, startValue]
      | cons item rest =>
          rw [tokens, List.foldlM_cons]
          simp only [step, startValue, Option.bind_eq_bind, Option.bind_some]
          rw [List.foldlM_append, foldlM_firstItem, inductionHypothesis item List.mem_cons_self]
          exact foldlM_itemTokens
            (fun other member => inductionHypothesis other (List.mem_cons_of_mem _ member)) [item]
  | record fields _ inductionHypothesis =>
      cases fields with
      | nil => simp [record, tokens, step, startValue]
      | cons field rest =>
          rw [record, List.map_cons, tokens]
          simp only [List.foldlM_cons, step, startValue, Option.bind_eq_bind, Option.bind_some]
          rw [List.foldlM_append, inductionHypothesis field List.mem_cons_self]
          refine foldlM_fieldTokens ?_ [(some field.1, field.2)]
          intro other member
          obtain ⟨written, writtenMember, rfl⟩ := List.mem_map.mp member
          exact inductionHypothesis written (List.mem_cons_of_mem _ writtenMember)

end Reader

/-- The text of a complete tree is read as that tree. -/
theorem read?_prettyText
    {value : Json}
    (complete : value.Complete) :
    read? value.prettyText = some value := by
  have scanned := (spells_pretty complete 0).scan_eq
  have made : value.tokens.foldlM Reader.step Reader.start = some (.done value) :=
    Reader.foldlM_tokens complete []
  simp [read?, prettyText, scanned, ofTokens?, made]

end SynthGraph.Json
