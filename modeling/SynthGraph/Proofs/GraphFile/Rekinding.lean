import SynthGraph.Proofs.GraphFile.Loading

namespace SynthGraph

/-!
# Graph files under another kind

The kind of a file is one field of its text, or the third item if the text is a
list.  With another kind in its place the text spells the same file under that
kind (`GraphFile.Rekinded.load`).
-/

namespace Json

section Replacing

variable (name : String) (value : Json) (fields : List (Option String × Json))

/-- Fields with another value under a name, every other one as it was. -/
def replaceField : List (Option String × Json) :=
  fields.map fun field => if field.1 = some name then (field.1, value) else field

theorem named_replaceField :
    (replaceField name value fields).all (·.1.isSome) = fields.all (·.1.isSome) := by
  rw [replaceField, List.all_map]
  congr 1
  funext field
  simp only [Function.comp_apply]
  split <;> rfl

/-- The field is found with its other value. -/
theorem single?_replaceField_self :
    single? (replaceField name value fields) name =
      (single? fields name).map (Option.map fun _ => value) := by
  have found :
      (replaceField name value fields).filter (·.1 = some name) =
        (fields.filter (·.1 = some name)).map fun field => (field.1, value) := by
    induction fields with
    | nil => rfl
    | cons field fields inductionHypothesis =>
        rw [replaceField] at inductionHypothesis ⊢
        by_cases isNamed : field.1 = some name <;> simp [isNamed, inductionHypothesis]
  rw [single?, found, single?]
  cases fields.filter (·.1 = some name) with
  | nil => rfl
  | cons field others => cases others <;> rfl

/-- Every other field is found as it was. -/
theorem single?_replaceField_of_ne
    {other : String}
    (different : other ≠ name) :
    single? (replaceField name value fields) other = single? fields other := by
  have found :
      (replaceField name value fields).filter (·.1 = some other) =
        fields.filter (·.1 = some other) := by
    induction fields with
    | nil => rfl
    | cons field fields inductionHypothesis =>
        rw [replaceField] at inductionHypothesis ⊢
        by_cases isNamed : field.1 = some name
        · simp [isNamed, Ne.symm different, inductionHypothesis]
        · simp [isNamed, List.filter_cons, inductionHypothesis]
  rw [single?, found, single?]

/-- Only the value found under the name is another one. -/
theorem mapM_single?_replaceField
    {names : List String}
    {slots : List (Option Json)}
    (split : names.mapM (single? fields) = some slots) :
    names.mapM (single? (replaceField name value fields)) =
      some (List.zipWith
        (fun other slot => if other = name then slot.map fun _ => value else slot)
        names slots) := by
  induction names generalizing slots with
  | nil =>
      cases split
      rfl
  | cons other names inductionHypothesis =>
      rw [List.mapM_cons] at split
      obtain ⟨slot, isSlot, split⟩ := Option.bind_eq_some_iff.mp split
      obtain ⟨others, areOthers, isWhole⟩ := Option.bind_eq_some_iff.mp split
      cases isWhole
      rw [List.mapM_cons, inductionHypothesis areOthers, List.zipWith_cons_cons]
      by_cases isName : other = name
      · subst isName
        simp [single?_replaceField_self, isSlot]
      · simp [single?_replaceField_of_ne name value fields isName, isSlot, isName]

end Replacing

end Json

namespace GraphFile

/-- The fields of a file in declared order. -/
def fieldNames : List String :=
  ["name", "version", "kind", "bank_index", "channel", "nodes", "connections"]

/-- What a file spells with a kind put in the place of its own. -/
def withKind (kind : GraphKind) : Json → Json
  | .object fields => .object (Json.replaceField "kind" (.string kind.name) fields)
  | .list items => .list (items.set 2 (.string kind.name))
  | other => other

/-- Another kind is found in its field, and all other fields are found as they were. -/
theorem slots?_withKind
    {kind : GraphKind}
    {tree written : Json}
    {name version bankIndex channel nodes connections : Option Json}
    (split :
      tree.slots? fieldNames =
        some [name, version, some written, bankIndex, channel, nodes, connections]) :
    (withKind kind tree).slots? fieldNames =
      some [name, version, some (.string kind.name), bankIndex, channel, nodes, connections] := by
  cases tree with
  | object fields =>
      rw [Json.slots?] at split
      rw [withKind, Json.slots?, Json.named_replaceField]
      split at split
      · next named =>
        rw [if_pos named]
        rw [Json.mapM_single?_replaceField "kind" _ fields split]
        simp [fieldNames]
      · cases split
  | list items =>
      -- The kind has to be there, so the list has three items at least.
      rcases items with _ | ⟨first, _ | ⟨second, _ | ⟨third, rest⟩⟩⟩ <;>
        simp only [Json.slots?, Record.positional?, fieldNames] at split
      · simp at split
      · simp at split
      · simp at split
      · simp only [withKind, Json.slots?, Record.positional?, fieldNames] at split ⊢
        simp only [List.length_cons, List.length_nil, List.set_cons_succ, List.set_cons_zero,
          List.map_cons, List.cons_append] at split ⊢
        split at split
        · next within =>
          simp only [Option.some.injEq, List.cons.injEq] at split
          obtain ⟨isName, isVersion, _, others⟩ := split
          rw [if_pos within, isName, isVersion, others]
        · cases split
  | _ => cases split

/-- With another kind the same file is spelled under that kind. -/
theorem ofJson?_withKind
    {tree : Json}
    {file : GraphFile}
    (spelled : ofJson? tree = some file)
    (kind : GraphKind) :
    ofJson? (withKind kind tree) = some { file with kind := kind } := by
  obtain ⟨slots, split, isRead⟩ := Option.bind_eq_some_iff.mp spelled
  split at isRead
  · next name version written bankIndex channel nodes connections =>
    simp only [Option.bind_eq_bind, Option.bind_eq_some_iff, Option.pure_def,
      Option.some.injEq] at isRead
    obtain ⟨_, isName, _, isVersion, _, isKind, _, isBankIndex, _, isChannel, _, areNodes, _,
      areConnections, rfl⟩ := isRead
    cases written with
    | none => cases isKind
    | some written =>
        have splitAgain : (withKind kind tree).slots? fieldNames = _ := slots?_withKind split
        have isOtherKind : Record.required? readKind? (some (.string kind.name)) = some kind :=
          readKind?_name kind
        rw [fieldNames] at splitAgain
        simp only [ofJson?, splitAgain, isName, isVersion, isOtherKind, isBankIndex, isChannel,
          areNodes, areConnections, Option.bind_eq_bind, Option.bind_some, Option.pure_def]
  · cases isRead

/--
Whether two contents say the same but for the kind, which is a given one in the
second.
-/
def Rekinded (kind : GraphKind) (contents other : ByteArray) : Prop :=
  ∃ text otherText tree,
    String.fromUTF8? contents = some text ∧
      String.fromUTF8? other = some otherText ∧
      Json.read? text = some tree ∧
      Json.read? otherText = some (withKind kind tree)

/-- A file is saved under another kind with the same words but for the kind. -/
theorem withKind_toJson
    (file : GraphFile)
    (kind : GraphKind) :
    withKind kind file.toJson = { file with kind := kind }.toJson := by
  rcases file with ⟨_ | name, version, _, _ | bankIndex, _ | channel, nodes, connections⟩ <;>
    rfl

/-- A file that is saved under another kind says the same but for the kind. -/
theorem rekinded_saved
    (file : GraphFile)
    (kind : GraphKind) :
    Rekinded kind file.saved { file with kind := kind : GraphFile }.saved := by
  refine ⟨file.text, _, file.toJson, fromUTF8?_toUTF8 _, fromUTF8?_toUTF8 _,
    Json.read?_prettyText file.complete_toJson, ?_⟩
  rw [file.withKind_toJson kind]
  exact Json.read?_prettyText (complete_toJson _)

/-- What is the same but for the kind is loaded as the same file but for the kind. -/
theorem Rekinded.load
    {kind : GraphKind}
    {contents other : ByteArray}
    {file : GraphFile}
    (rekinded : Rekinded kind contents other)
    (isLoaded : GraphFile.load (some contents) = .ok file) :
    GraphFile.load (some other) = .ok { file with kind := kind } := by
  obtain ⟨text, otherText, tree, isText, isOtherText, isTree, isOtherTree⟩ := rekinded
  simp only [GraphFile.load, ofBytes, isText, isOtherText, ofText, isTree, isOtherTree,
    Option.bind_some] at isLoaded ⊢
  cases spelled : ofJson? tree with
  | none =>
      rw [spelled] at isLoaded
      cases isLoaded
  | some spelledFile =>
      rw [spelled] at isLoaded
      rw [ofJson?_withKind spelled]
      simp only at isLoaded ⊢
      split at isLoaded
      · next known =>
        cases isLoaded
        exact if_pos known
      · cases isLoaded

end GraphFile

end SynthGraph
