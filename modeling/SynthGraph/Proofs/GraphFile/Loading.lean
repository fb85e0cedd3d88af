import SynthGraph.GraphFile.Text
import SynthGraph.Proofs.Entries
import SynthGraph.Proofs.Json.ReadBack
import SynthGraph.Proofs.Json.Records

namespace SynthGraph

/-!
# Saved graph files are loaded

What is written of a file is read field by field, so a saved file comes back
with nothing changed but its numbers: each one is what its written form is read
as, and if one of them has no such number, nothing is read at all.

Main statement: a file whose numbers are finite and are read back from their
written forms is loaded as it was saved, or turned down for its version.
-/

namespace GraphFile

/-- The 64-bit number that the written form of another one is read as. -/
def rereadDouble? (number : Double) : Option Double :=
  (Json.ofBinary .double number).double?

/-- The 32-bit number that the written form of another one is read as. -/
def rereadSingle? (number : Single) : Option Single :=
  (Json.ofBinary .single number).single32?

end GraphFile

section Lists

variable {α β : Type} {read? : α → Option β}

/-- A list is read to its end if each item is. -/
private theorem isSome_mapM_iff {items : List α} :
    (items.mapM read?).isSome ↔ ∀ item ∈ items, (read? item).isSome := by
  induction items with
  | nil => simp
  | cons item items inductionHypothesis =>
      rw [List.forall_mem_cons, ← inductionHypothesis, List.mapM_cons]
      cases read? item <;> cases items.mapM read? <;> simp

/-- A list is read as it is if each item is. -/
private theorem mapM_eq_some_self
    {read? : α → Option α}
    {items : List α}
    (each : ∀ item ∈ items, read? item = some item) :
    items.mapM read? = some items := by
  induction items with
  | nil => rfl
  | cons item items inductionHypothesis =>
      rw [List.forall_mem_cons] at each
      simp [List.mapM_cons, each.1, inductionHypothesis each.2]

end Lists

namespace Sample

/-- The sample with its pitch read again. -/
def reread? (sample : Sample) : Option Sample :=
  (GraphFile.rereadDouble? sample.basePitch).map fun basePitch =>
    { sample with basePitch := basePitch }

/-- A written sample is read. -/
theorem read_write (sample : Sample) :
    GraphFile.readSample? (GraphFile.writeSample sample) = sample.reread? := by
  have slots := Json.slots?_record
    [("file", some (.string sample.file)), ("pitched", some (.bool sample.pitched)),
      ("base_pitch", some (.ofBinary .double sample.basePitch))]
    (by simp)
  simp only [List.map_cons, List.map_nil] at slots
  change Json.slots? _ (GraphFile.writeSample sample) = _ at slots
  simp [GraphFile.readSample?, slots, Record.required?, Record.defaulted?, reread?,
    GraphFile.rereadDouble?, Option.map_eq_bind]

end Sample

namespace Position

/-- The place with both numbers read again. -/
def reread? (position : Position) : Option Position := do
  let x ← GraphFile.rereadSingle? position.x
  let y ← GraphFile.rereadSingle? position.y
  return ⟨x, y⟩

/-- A written place is read. -/
theorem read_write (position : Position) :
    GraphFile.readPosition? (GraphFile.writePosition position) = position.reread? :=
  rfl

end Position

namespace DialValues

/-- The dial values with each value read again. -/
def reread? (dials : DialValues) : Option DialValues :=
  (dials.entries.mapM fun entry =>
    (GraphFile.rereadDouble? entry.2).map (entry.1, ·)).map ofList

/-- Written dial values are read. -/
theorem read_write (dials : DialValues) :
    GraphFile.readDials? (GraphFile.writeDials dials) = dials.reread? := by
  rw [GraphFile.writeDials, Json.record, GraphFile.readDials?, List.mapM_map, List.mapM_map,
    reread?]
  congr 2
  funext entry
  simp [GraphFile.readDialValue?, GraphFile.rereadDouble?, Option.map_eq_bind]

/-- Dial values are read if each of them is. -/
theorem isSome_reread?_iff (dials : DialValues) :
    dials.reread?.isSome
      ↔ ∀ number ∈ dials.entries.map Prod.snd, (GraphFile.rereadDouble? number).isSome := by
  rw [reread?, Option.isSome_map, isSome_mapM_iff, List.forall_mem_map]
  simp only [Option.isSome_map]

/-- Dial values that are read back one by one are read back together. -/
theorem reread?_eq_some_self
    {dials : DialValues}
    (each : ∀ entry ∈ dials.entries, GraphFile.rereadDouble? entry.2 = some entry.2) :
    dials.reread? = some dials := by
  have entries :
      (dials.entries.mapM fun entry => (GraphFile.rereadDouble? entry.2).map (entry.1, ·))
        = some dials.entries :=
    mapM_eq_some_self fun entry member => by rw [each entry member, Option.map_some]
  rw [reread?, entries, Option.map_some]
  congr 1
  cases dials
  simp [ofList, Entries.ofList_of_sorted, *]

end DialValues

namespace FileNode

/-- The node with its numbers read again. -/
def reread? (node : FileNode) : Option FileNode := do
  let position ← node.position.reread?
  let dials ← node.dials.reread?
  let sample ← Record.optional? Sample.reread? node.sample
  return { node with position := position, dials := dials, sample := sample }

/-- A written node is read. -/
theorem read_write (node : FileNode) :
    GraphFile.readNode? (GraphFile.writeNode node) = node.reread? := by
  have slots := Json.slots?_record
    [("kind", some (.string node.kind)),
      ("position", some (GraphFile.writePosition node.position)),
      ("dials", some (GraphFile.writeDials node.dials)),
      ("sample", node.sample.map GraphFile.writeSample)]
    (by simp)
  simp only [List.map_cons, List.map_nil] at slots
  change Json.slots? _ (GraphFile.writeNode node) = _ at slots
  have written : ∀ sample, GraphFile.writeSample sample ≠ .null := by
    simp [GraphFile.writeSample, Json.record]
  have sample := Json.optional?_map GraphFile.readSample? written node.sample
  simp [GraphFile.readNode?, slots, Record.required?, Record.defaulted?, reread?, sample,
    Position.read_write, DialValues.read_write, Sample.read_write]

/-- The 64-bit numbers of a node: the values of its dials and the pitch of its sample. -/
def doubles (node : FileNode) : List Double :=
  node.dials.entries.map Prod.snd ++ node.sample.toList.map Sample.basePitch

/-- The 32-bit numbers of a node: its place. -/
def singles (node : FileNode) : List Single :=
  [node.position.x, node.position.y]

variable {node : FileNode}

/-- A node is read if each of its numbers is. -/
theorem isSome_reread?_iff :
    node.reread?.isSome
      ↔ (∀ number ∈ node.doubles, (GraphFile.rereadDouble? number).isSome) ∧
        ∀ number ∈ node.singles, (GraphFile.rereadSingle? number).isSome := by
  have dials := node.dials.isSome_reread?_iff
  have position :
      node.position.reread?.isSome
        ↔ ∀ number ∈ node.singles, (GraphFile.rereadSingle? number).isSome := by
    rw [singles, List.forall_mem_cons, List.forall_mem_singleton, Position.reread?]
    cases GraphFile.rereadSingle? node.position.x <;>
      cases GraphFile.rereadSingle? node.position.y <;> simp
  have sample :
      (Record.optional? Sample.reread? node.sample).isSome
        ↔ ∀ number ∈ node.sample.toList.map Sample.basePitch,
          (GraphFile.rereadDouble? number).isSome := by
    cases node.sample <;> simp [Record.optional?, Sample.reread?]
  have whole :
      node.reread?.isSome
        ↔ node.position.reread?.isSome ∧ node.dials.reread?.isSome ∧
          (Record.optional? Sample.reread? node.sample).isSome := by
    rw [reread?]
    cases node.position.reread? <;> cases node.dials.reread? <;>
      cases Record.optional? Sample.reread? node.sample <;> simp
  rw [whole, position, dials, sample, doubles, List.forall_mem_append]
  exact And.comm

/-- A node whose numbers are read back is read back. -/
theorem reread?_eq_some_self
    (doubles : ∀ number ∈ node.doubles, GraphFile.rereadDouble? number = some number)
    (singles : ∀ number ∈ node.singles, GraphFile.rereadSingle? number = some number) :
    node.reread? = some node := by
  rw [FileNode.doubles, List.forall_mem_append, List.forall_mem_map] at doubles
  rw [FileNode.singles, List.forall_mem_cons, List.forall_mem_singleton] at singles
  have dials := DialValues.reread?_eq_some_self doubles.1
  have position : node.position.reread? = some node.position := by
    simp [Position.reread?, singles.1, singles.2]
  have sample : Record.optional? Sample.reread? node.sample = some node.sample := by
    cases sampled : node.sample with
    | none => rfl
    | some sample =>
        have pitch := doubles.2 sample.basePitch (by simp [sampled])
        simp [Record.optional?, Sample.reread?, pitch]
  simp [reread?, position, dials, sample]

end FileNode

namespace FileConnection

/-- A connection is made of its four fields, in whatever way its positions are written. -/
private theorem readConnection?_of_slots
    {value fromNode toNode : Json}
    {connection : FileConnection}
    (slots :
      value.slots? ["from_node", "from_socket", "to_node", "to_socket"]
        = some [some fromNode, some (.string connection.fromSocket), some toNode,
            some (.string connection.toSocket)])
    (fromNodeRead : fromNode.uint64? = some connection.fromNode)
    (toNodeRead : toNode.uint64? = some connection.toNode) :
    GraphFile.readConnection? value = some connection := by
  unfold GraphFile.readConnection?
  rw [slots]
  simp only [Record.required?, fromNodeRead, toNodeRead, Json.string?_string,
    Option.bind_eq_bind, Option.bind_some, Option.pure_def]

/-- A written connection is read back. -/
theorem read_write (connection : FileConnection) :
    GraphFile.readConnection? (GraphFile.writeConnection connection) = some connection :=
  readConnection?_of_slots
    (Json.slots?_record
      [("from_node", some (.natural connection.fromNode.toNat)),
        ("from_socket", some (.string connection.fromSocket)),
        ("to_node", some (.natural connection.toNode.toNat)),
        ("to_socket", some (.string connection.toSocket))]
      (by simp))
    (Json.uint64?_natural connection.fromNode)
    (Json.uint64?_natural connection.toNode)

end FileConnection

namespace GraphFile

variable {file : GraphFile}

/-- The file with its numbers read again. -/
def reread? (file : GraphFile) : Option GraphFile :=
  (file.nodes.mapM FileNode.reread?).map fun nodes => { file with nodes := nodes }

/-- A file is read if each of its nodes is. -/
theorem isSome_reread?_iff :
    file.reread?.isSome ↔ ∀ node ∈ file.nodes, node.reread?.isSome := by
  rw [reread?, Option.isSome_map, isSome_mapM_iff]

/-- A written kind of graph is read back. -/
theorem readKind?_name (kind : GraphKind) :
    readKind? (.string kind.name) = some kind := by
  cases kind <;> rfl

/-- A written file is read. -/
theorem read_write (file : GraphFile) : ofJson? file.toJson = file.reread? := by
  have slots := Json.slots?_record
    [("name", file.name.map Json.string),
      ("version", some (.natural file.version.toNat)),
      ("kind", some (.string file.kind.name)),
      ("bank_index", file.bankIndex.map fun index => .natural index.toNat),
      ("channel", file.channel.map fun channel => .natural channel.toNat),
      ("nodes", some (.list (file.nodes.map writeNode))),
      ("connections", some (.list (file.connections.map writeConnection)))]
    (by simp)
  simp only [List.map_cons, List.map_nil] at slots
  change Json.slots? _ file.toJson = _ at slots
  have name := Json.optional?_map_eq_some Json.string
    (by simp [Json.string]) Json.string?_string file.name
  have bankIndex := Json.optional?_map_eq_some (fun index : UInt32 => .natural index.toNat)
    (by simp [Json.natural]) Json.uint32?_natural file.bankIndex
  have channel := Json.optional?_map_eq_some (fun channel : UInt8 => .natural channel.toNat)
    (by simp [Json.natural]) Json.uint8?_natural file.channel
  have nodes := Json.listOf?_list_map readNode? writeNode file.nodes
  have connections := Json.listOf?_list_map readConnection? writeConnection file.connections
  simp only [FileNode.read_write] at nodes
  rw [mapM_eq_some_self fun connection _ => connection.read_write] at connections
  simp only [ofJson?, slots, Record.required?, name, bankIndex, channel, nodes, connections,
    readKind?_name, Json.uint32?_natural, Option.bind_eq_bind, Option.bind_some, reread?]
  cases file.nodes.mapM FileNode.reread? <;> rfl

/-- The 64-bit numbers in a file. -/
def doubles (file : GraphFile) : List Double :=
  file.nodes.flatMap FileNode.doubles

/-- The 32-bit numbers in a file. -/
def singles (file : GraphFile) : List Single :=
  file.nodes.flatMap FileNode.singles

/-- A file whose numbers are read back is read back. -/
theorem reread?_eq_some_self
    (doubles : ∀ number ∈ file.doubles, rereadDouble? number = some number)
    (singles : ∀ number ∈ file.singles, rereadSingle? number = some number) :
    file.reread? = some file := by
  rw [GraphFile.doubles, List.forall_mem_flatMap] at doubles
  rw [GraphFile.singles, List.forall_mem_flatMap] at singles
  have nodes := mapM_eq_some_self fun node member =>
    FileNode.reread?_eq_some_self (doubles node member) (singles node member)
  rw [reread?, nodes, Option.map_some]

section Text

/-- A written node is complete. -/
private theorem complete_writeNode (node : FileNode) : (writeNode node).Complete := by
  have position : (writePosition node.position).Complete := by
    refine .list _ ?_
    rw [List.forall_mem_cons, List.forall_mem_singleton]
    exact ⟨Json.complete_ofBinary _ _, Json.complete_ofBinary _ _⟩
  have dials : (writeDials node.dials).Complete := by
    refine .record _ ?_
    rw [List.forall_mem_map]
    exact fun entry _ => Json.complete_ofBinary _ _
  have sample : ∀ sample, (writeSample sample).Complete := by
    intro sample
    refine .record _ ?_
    simp only [List.forall_mem_cons]
    exact ⟨.string _, .bool _, Json.complete_ofBinary _ _, List.forall_mem_nil _⟩
  refine Json.complete_present ?_
  simp only [List.forall_mem_cons, Option.mem_def, Option.some.injEq, forall_eq',
    Option.map_eq_some_iff, forall_exists_index, and_imp, forall_apply_eq_imp_iff₂]
  exact ⟨.string _, position, dials, fun written _ => sample written, List.forall_mem_nil _⟩

/-- A written connection is complete. -/
private theorem complete_writeConnection (connection : FileConnection) :
    (writeConnection connection).Complete := by
  refine .record _ ?_
  simp only [List.forall_mem_cons]
  exact ⟨.number _, .string _, .number _, .string _, List.forall_mem_nil _⟩

/-- A written file is complete. -/
theorem complete_toJson (file : GraphFile) : file.toJson.Complete := by
  have nodes : (Json.list (file.nodes.map writeNode)).Complete :=
    .list _ (List.forall_mem_map.mpr fun node _ => complete_writeNode node)
  have connections : (Json.list (file.connections.map writeConnection)).Complete :=
    .list _ (List.forall_mem_map.mpr fun connection _ => complete_writeConnection connection)
  refine Json.complete_present ?_
  simp only [List.forall_mem_cons, Option.mem_def, Option.some.injEq, forall_eq',
    Option.map_eq_some_iff, forall_exists_index, and_imp, forall_apply_eq_imp_iff₂]
  exact ⟨fun _ _ => .string _, .number _, .string _, fun _ _ => .number _, fun _ _ => .number _,
    nodes, connections, List.forall_mem_nil _⟩

/-- The bytes that are saved of a file. -/
def saved (file : GraphFile) : ByteArray :=
  file.text.toUTF8

/-- The bytes of a text are read as that text. -/
theorem fromUTF8?_toUTF8 (text : String) :
    String.fromUTF8? text.toUTF8 = some text := by
  simp [String.fromUTF8?, String.fromUTF8, text.isValidUTF8]

/-- Loading a saved file reads all of its numbers again and then looks at its version. -/
theorem load_saved (file : GraphFile) :
    load (some file.saved) =
      match file.reread? with
      | none => .error .malformed
      | some read =>
          if read.isCompatible then .ok read else .error (.incompatible read.version) := by
  have read : (Json.read? file.text).bind ofJson? = file.reread? := by
    rw [text, Json.read?_prettyText file.complete_toJson, Option.bind_some, read_write]
  rw [load, ofBytes, saved, fromUTF8?_toUTF8]
  cases reread : file.reread? <;> simp [ofText, read, reread]

/-- A saved file of a known version is loaded if its nodes are read, and malformed otherwise. -/
theorem load_saved_of_isCompatible
    (file : GraphFile)
    (known : file.isCompatible) :
    ((∀ node ∈ file.nodes, node.reread?.isSome) →
        ∃ read, load (some file.saved) = .ok read) ∧
      (¬ (∀ node ∈ file.nodes, node.reread?.isSome) →
        load (some file.saved) = .error .malformed) := by
  rw [← isSome_reread?_iff, load_saved]
  cases reread : file.reread? with
  | none => simp
  | some read =>
      obtain ⟨nodes, _, rfl⟩ := Option.map_eq_some_iff.mp reread
      simp [show isCompatible { file with nodes := nodes } = true from known]

end Text

/-- All numbers in a file are finite. -/
structure NumbersFinite (file : GraphFile) : Prop where
  doubles : ∀ number ∈ file.doubles, number.finite?.isSome
  singles : ∀ number ∈ file.singles, number.finite?.isSome

/-- The finite numbers in a file are read back from what is written for them. -/
structure FiniteReadBack (file : GraphFile) : Prop where
  doubles :
    ∀ number ∈ file.doubles, number.finite?.isSome → rereadDouble? number = some number
  singles :
    ∀ number ∈ file.singles, number.finite?.isSome → rereadSingle? number = some number

/--
A saved file with finite numbers is loaded as it was saved if its version is
known, and turned down for its version otherwise.
-/
theorem load_saved_eq_self
    (finite : file.NumbersFinite)
    (readBack : file.FiniteReadBack) :
    load (some file.saved) =
      if file.version ≤ latestVersion then .ok file else .error (.incompatible file.version) := by
  have read := reread?_eq_some_self
    (fun number member => readBack.doubles number member (finite.doubles number member))
    (fun number member => readBack.singles number member (finite.singles number member))
  simp only [load_saved, read, isCompatible, decide_eq_true_eq]

/--
A file with a name that needs every kind of escape, with a sample on its first
node and no dials on its second.
-/
def annotated : GraphFile :=
  { name := some "\"kick\" \\ drüm\t\n\x01"
    version := 1
    kind := .instrument
    bankIndex := none
    channel := some 9
    nodes :=
      [{ kind := "wav"
         position := ⟨12.5, -0.1⟩
         dials := .ofList [("volume", 0.3), ("attack", 1e-7)]
         sample := some ⟨"kick.wav", true, 261.6⟩ },
       { kind := "output"
         position := .origin
         dials := .empty
         sample := none }]
    connections := [⟨0, "audio", 1, "audio"⟩] }

theorem load_saved_eq_self_annotated :
    annotated.NumbersFinite ∧ annotated.FiniteReadBack ∧
      load (some annotated.saved) = .ok annotated ∧
      load (some { annotated with version := 2 }.saved) = .error (.incompatible 2) := by
  have finite : annotated.NumbersFinite := ⟨by decide +kernel, by decide +kernel⟩
  have readBack : annotated.FiniteReadBack := ⟨by decide +kernel, by decide +kernel⟩
  have later : load (some { annotated with version := 2 }.saved) = _ :=
    load_saved_eq_self ⟨finite.doubles, finite.singles⟩ ⟨readBack.doubles, readBack.singles⟩
  refine ⟨finite, readBack, ?_, ?_⟩
  · exact (load_saved_eq_self finite readBack).trans (if_pos (by decide))
  · exact later.trans (if_neg (by decide))

end GraphFile

end SynthGraph
