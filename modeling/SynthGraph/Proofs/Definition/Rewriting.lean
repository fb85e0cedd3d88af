import SynthGraph.Proofs.Unit.Dials
import SynthGraph.Proofs.Definition.Compilation

namespace SynthGraph

/-!
# Rewriting documents

Loading a document and compiling the instrument rewrites the document: combined
sounds are flattened, pannings are dropped, transposes move into the sound
sources they enclose, and all numbers are brought into range.  The rewriting is
defined here on documents alone, by the keys in the order in which they count,
and `compile?_ofDocument` shows that the way through a graph gives the same.
-/

namespace Document

/-- The number in a field, or the one it has when it is absent, brought into a range. -/
def ranged (body : Document) (name : String) (least greatest absent : Double) :
    String × Document :=
  (name,
    .number (Dial.clamp ⟨name, least, greatest, absent⟩ ((body.numberField? name).getD absent)))

/-- What a sound source says about loudness, place and envelope. -/
def loudness (body : Document) : Fields :=
  Entries.ofList
    [body.ranged "gain" 0 4 1,
      body.ranged "panning" 0 1 0.5,
      body.ranged "attack" 0 10 0,
      body.ranged "decay" 0 10 0,
      body.ranged "sustain" 0 1 0,
      body.ranged "release" 0 10 0]

/-- A generated wave, which follows a pitch if there is one. -/
def wave (key : String) (pitch : Option Document) (body : Document) : Document :=
  .keyed key
    (match pitch with
    | some pitch => Entries.insert "auto_pitch" pitch body.loudness
    | none => body.loudness)

/-- A played sample. -/
def player (body : Document) : Document :=
  .keyed "wav"
    (Entries.ofList
      [("file", .text (((body.field? "file").bind text?).getD "")),
        body.ranged "gain" 0 4 1,
        ("pitched", .bool (((body.field? "pitched").bind bool?).getD false)),
        ("base_pitch", .number ((body.numberField? "base_pitch").getD 440))])

/-- The keys of generated waves in the order in which they count, and how each is written. -/
def waveKeys : List (String × String) :=
  [("sine", "sine"), ("triangle", "triangle"), ("square", "square"), ("sawtooth", "sawtooth"),
    ("saw", "sawtooth"), ("white_noise", "white_noise"), ("pulse", "pulse")]

/-- The sound source that a document holds, under an optional pitch. -/
def source? (pitch : Option Document) (document : Document) : Option Document :=
  match document.present? "wav" with
  | some body => some body.player
  | none =>
      waveKeys.findSome? fun entry => (document.present? entry.1).map (wave entry.2 pitch)

/-- The keys of effects in the order in which they count, with their parameters. -/
def effectKeys : List (String × (Document → List (String × Document))) :=
  [("lpf", fun parameters => [parameters.ranged "cutoff" 1 22000 5000]),
    ("hpf", fun parameters => [parameters.ranged "cutoff" 1 22000 5000]),
    ("delay", fun parameters =>
      [parameters.ranged "time" 0.00001 4 1,
        parameters.ranged "factor" 0 2 1,
        parameters.ranged "feedback" 0 2 0]),
    ("distortion", fun _ => []),
    ("overdrive", fun _ => []),
    ("flanger", fun _ => []),
    ("average", fun _ => [])]

/-- The effect that the body of a filter holds. -/
def effect? (body : Document) : Option (String × Document) :=
  effectKeys.findSome? fun entry =>
    (body.present? entry.1).map fun parameters =>
      (entry.1, record (entry.2 parameters))

/-- A filter with the effect of its body around other fields. -/
def filtered (body : Document) (content : Option Document) : Document :=
  .keyed "filter" (Fields.merge? body.effect?.toList content)

/-- A pitch shifted by the semitones of a body. -/
def shifted (body : Document) (pitch : Option Document) : Document :=
  .keyed "transpose" (Fields.merge? [body.ranged "semitones" (-24) 24 0] pitch)

mutual

/-- The audio that a document describes under an optional pitch, one document for each sound. -/
def audio (pitch : Option Document) (document : Document) : List Document :=
  match _combined : document.present? "combined" with
  | some (.list parts) => audioAll pitch parts
  | some _ => []
  | none =>
  match _panning : document.present? "panning" with
  | some body => audio pitch body
  | none =>
  match _transpose : document.present? "transpose" with
  | some body => audio (some (body.shifted pitch)) body
  | none =>
  match document.source? pitch with
  | some source => [source]
  | none =>
  match document.present? "vocoder" with
  | some _ => []
  | none =>
  match _filter : document.present? "filter" with
  | some body => [body.filtered (resolve? (audio pitch body))]
  | none => []
termination_by sizeOf document
decreasing_by
  · have smaller := sizeOf_present? _combined
    simp only [list.sizeOf_spec] at smaller
    omega
  · exact sizeOf_present? _panning
  · exact sizeOf_present? _transpose
  · exact sizeOf_present? _filter

/-- The audio that several documents describe. -/
def audioAll (pitch : Option Document) : List Document → List Document
  | [] => []
  | first :: rest => audio pitch first ++ audioAll pitch rest
termination_by documents => sizeOf documents

end

/-- The keys of a document are looked for one after the other. -/
theorem audio_eq
    (pitch : Option Document)
    (document : Document) :
    document.audio pitch =
      match document.present? "combined" with
      | some (.list parts) => audioAll pitch parts
      | some _ => []
      | none =>
      match document.present? "panning" with
      | some body => body.audio pitch
      | none =>
      match document.present? "transpose" with
      | some body => body.audio (some (body.shifted pitch))
      | none =>
      match document.source? pitch with
      | some source => [source]
      | none =>
      match document.present? "vocoder" with
      | some _ => []
      | none =>
      match document.present? "filter" with
      | some body => [body.filtered (resolve? (body.audio pitch))]
      | none => [] := by
  rw [audio]
  cases document.present? "combined" with
  | some value =>
      cases value <;> rfl
  | none =>
      cases document.present? "panning" with
      | some body =>
          rfl
      | none =>
          cases document.present? "transpose" with
          | some body =>
              rfl
          | none =>
              cases document.present? "filter" <;> rfl

/-- A document with the name and the bank slot that another states. -/
def labelled (statement : Document) : Document → Document
  | object fields =>
      let named :=
        match (statement.field? "name").bind text? with
        | some name => Entries.insert "name" (.text name) fields
        | none => fields
      object
        (match (statement.field? "index").bind uint32? with
        | some index => Entries.insert "index" (.natural index.toNat) named
        | none => named)
  | document => document

end Document

namespace Definition

theorem ofDocument_eq
    (document : Document) :
    ofDocument document =
      match document.present? "combined" with
      | some (.list parts) => combined <$> ofDocuments parts
      | some other => .error (.unknownDefinition other)
      | none =>
      match document.present? Panning.kind with
      | some body => panning <$> ofDocument body
      | none =>
      match document.present? Transpose.kind with
      | some body => transpose (readTranspose body) <$> ofDocument body
      | none =>
      match generator? document with
      | some unit => .ok (generator unit)
      | none =>
      match document.present? "vocoder" with
      | some _ => .ok omitted
      | none =>
      match document.present? "filter" with
      | some body => do
          let (mode, dials) ← filter? body
          filter mode dials <$> ofDocument body
      | none => .error (.unknownDefinition document) := by
  rw [ofDocument]
  cases document.present? "combined" with
  | some value =>
      cases value <;> rfl
  | none =>
      cases document.present? Panning.kind with
      | some body =>
          rfl
      | none =>
          cases document.present? Transpose.kind with
          | some body =>
              rfl
          | none =>
              cases document.present? "filter" <;> rfl
section Dials

variable (body : Document)

/-- A dial turned to the number in a field, if there is one. -/
def readInto (id : String) (dial : Dial) : Dial :=
  match body.numberField? id with
  | some value => dial.set value
  | none => dial

theorem readDial_eq_change
    {dials : Dials}
    (idsNodup : (dials.map Dial.id).Nodup)
    (id : String) :
    readDial body dials id = Dials.change (readInto body id) dials id := by
  cases found : body.numberField? id with
  | none =>
      simp [readDial, Dials.change, readInto, found]
  | some value =>
      simp only [readDial, found, Dials.set_eq_change idsNodup, Dials.change, readInto]

/-- Reading all dials turns each of them to the number in the field of its name. -/
theorem foldl_readDial
    {dials : Dials}
    (idsNodup : (dials.map Dial.id).Nodup) :
    (dials.map Dial.id).foldl (readDial body) dials =
      dials.map fun dial => readInto body dial.id dial := by
  have keepsId (id : String) (dial : Dial) : (readInto body id dial).id = dial.id := by
    unfold readInto
    split <;> rfl
  have changes :
      ∀ id ∈ dials.map Dial.id, ∀ dials : Dials, (dials.map Dial.id).Nodup →
        readDial body dials id = Dials.change (readInto body id) dials id :=
    fun id _ dials dialsNodup => readDial_eq_change body dialsNodup id
  rw [Dials.foldl_eq_map id keepsId changes (by simpa using idsNodup) idsNodup]
  apply List.map_congr_left
  intro dial member
  rw [List.map_id, if_pos (List.mem_map_of_mem member)]

/-- Dials in range are written as the numbers in their fields, brought into range. -/
theorem parameters_readInto
    {dials : Dials}
    (inRange : ∀ dial ∈ dials, Dials.InRange dial) :
    Filter.parameters (dials.map fun dial => readInto body dial.id dial) =
      Entries.ofList
        (dials.map fun dial => body.ranged dial.id dial.least dial.greatest dial.value) := by
  rw [Filter.parameters, List.map_map]
  congr 1
  apply List.map_congr_left
  intro dial member
  have unturned := inRange dial member
  simp only [Function.comp_apply, readInto, Document.ranged]
  cases found : body.numberField? dial.id with
  | none =>
      simp only [Option.getD_none]
      rw [show Dial.clamp ⟨dial.id, dial.least, dial.greatest, dial.value⟩ dial.value = dial.value
        from unturned]
  | some value =>
      rfl

variable
  {declared dials : Dials}
  (turned : Dials.Turned declared dials)
  (ordered : ∀ dial ∈ declared, dial.isOrdered)

include turned ordered

theorem turned_readDialOr
    (id : String)
    (absent : Double) :
    Dials.Turned declared (readDialOr body dials id absent) :=
  turned.set ordered id _

/-- Reading dials keeps them in their ranges. -/
theorem turned_foldl_readDial
    (ids : List String) :
    Dials.Turned declared (ids.foldl (readDial body) dials) := by
  induction ids generalizing dials with
  | nil =>
      exact turned
  | cons id rest inductionHypothesis =>
      rw [List.foldl_cons]
      apply inductionHypothesis
      unfold readDial
      split
      · exact turned.set ordered id _
      · exact turned

theorem turned_readEnvelope :
    Dials.Turned declared (readEnvelope body dials) := by
  have step {dials : Dials} (turned : Dials.Turned declared dials) (id : String) :=
    turned_readDialOr body turned ordered id 0
  have gain := turned_readDialOr body turned ordered "gain" 1
  exact step (step (step (step gain "attack") "decay") "sustain") "release"

end Dials

section Sources

/-- The dials of a generator are written as the numbers of its body. -/
theorem dialFields_readGenerator
    (body : Document) :
    Generator.dialFields
        (["pitch", "panning"].foldl (readDial body) (readEnvelope body Generator.dials))
        Generator.writtenDials =
      body.loudness := by
  have centered : Dial.clamp ⟨"panning", 0, 1, 0.5⟩ 0.5 = 0.5 := by
    decide +kernel
  refine congrArg Entries.ofList ?_
  cases isPitch : body.numberField? "pitch" <;>
    cases isPanning : body.numberField? "panning" <;>
      simp only [List.foldl_cons, List.foldl_nil, readDial, isPitch, isPanning, Document.ranged,
        Option.getD_none, Option.getD_some, centered] <;>
      rfl

theorem sounded_readGenerator
    (pitch : Option Document)
    (waveform : Waveform)
    (body : Document) :
    sounded pitch (readGenerator waveform body) =
      Document.wave waveform.documentKey pitch body := by
  cases pitch <;>
    simp only [readGenerator, sounded, Document.wave, dialFields_readGenerator]

theorem map_findSome?
    {α β γ : Type}
    (items : List α)
    (find? : α → Option β)
    (convert : β → γ) :
    (items.findSome? find?).map convert = items.findSome? fun item => (find? item).map convert := by
  induction items with
  | nil =>
      rfl
  | cons item rest inductionHypothesis =>
      rw [List.findSome?_cons, List.findSome?_cons]
      cases find? item with
      | none =>
          exact inductionHypothesis
      | some found =>
          rfl

/-- The sound source of a document is written as its rewriting says. -/
theorem source?_eq
    (pitch : Option Document)
    (document : Document) :
    document.source? pitch = (generator? document).map (sounded pitch) := by
  have keys :
      Document.waveKeys = waveformKeys.map fun entry => (entry.1, entry.2.documentKey) := rfl
  have kind : Sample.kind = "wav" := rfl
  rw [Document.source?, generator?, kind]
  cases document.present? "wav" with
  | some body =>
      rfl
  | none =>
      simp only [keys, List.findSome?_map, map_findSome?, Option.map_map]
      congr 1
      funext entry
      simp only [Function.comp_apply]
      cases document.present? entry.1 with
      | none =>
          rfl
      | some body =>
          simp only [Option.map_some, Function.comp_apply, sounded_readGenerator]

theorem isGenerator_of_generator?
    {document : Document}
    {unit : InstrumentUnit}
    (found : generator? document = some unit) :
    unit.isGenerator := by
  unfold generator? at found
  split at found
  · cases found
    rfl
  · obtain ⟨entry, _, isUnit⟩ := List.exists_of_findSome?_eq_some found
    obtain ⟨body, _, rfl⟩ := Option.map_eq_some_iff.mp isUnit
    rfl

theorem tuned_of_generator?
    {document : Document}
    {unit : InstrumentUnit}
    (found : generator? document = some unit) :
    CatalogUnit.Tuned unit := by
  have declarable := Generator.declarable_dials
  have envelope (body : Document) :=
    turned_readEnvelope body declarable.turned declarable.ordered
  unfold generator? at found
  split at found
  · rename_i body _
    cases found
    exact envelope body
  · obtain ⟨entry, _, isUnit⟩ := List.exists_of_findSome?_eq_some found
    obtain ⟨body, _, rfl⟩ := Option.map_eq_some_iff.mp isUnit
    exact turned_foldl_readDial body (envelope body) declarable.ordered _

theorem turned_of_filter?
    {body : Document}
    {mode : FilterMode}
    {dials : Dials}
    (accepted : filter? body = .ok (mode, dials)) :
    Dials.Turned mode.dials dials := by
  unfold filter? at accepted
  split at accepted
  · rename_i found isFound
    cases accepted
    obtain ⟨mode, _, isRead⟩ := List.exists_of_findSome?_eq_some isFound
    obtain ⟨parameters, _, read⟩ := Option.map_eq_some_iff.mp isRead
    cases read
    have declarable := mode.declarable_dials
    exact turned_foldl_readDial parameters declarable.turned declarable.ordered _
  · cases accepted

/-- The effect of a filter is written as its rewriting says. -/
theorem effect?_eq
    {body : Document}
    {mode : FilterMode}
    {dials : Dials}
    (accepted : filter? body = .ok (mode, dials)) :
    body.effect? = some (mode.key, .object (Filter.parameters dials)) := by
  have keys :
      Document.effectKeys =
        modesByKey.map fun mode =>
          (mode.key, fun parameters =>
            mode.dials.map fun dial =>
              parameters.ranged dial.id dial.least dial.greatest dial.value) := rfl
  unfold filter? at accepted
  split at accepted
  · rename_i found isFound
    cases accepted
    have converted :=
      congrArg
        (Option.map fun read : FilterMode × Dials =>
          (read.1.key, Document.object (Filter.parameters read.2)))
        isFound
    rw [map_findSome?, Option.map_some] at converted
    rw [← converted, Document.effect?, keys, List.findSome?_map]
    congr 1
    funext mode
    simp only [Function.comp_apply]
    cases body.present? mode.key with
    | none =>
        rfl
    | some parameters =>
        simp only [Option.map_some, readFilter, Document.record,
          foldl_readDial parameters mode.declarable_dials.ids_nodup,
          parameters_readInto parameters mode.declarable_dials.inRange]
  · cases accepted

end Sources

/-- A definition has the audio documents that rewriting a document gives. -/
structure Rewrites (document : Document) (definition : Definition) : Prop where
  sound : definition.Sound
  audio_eq : ∀ pitch, document.audio pitch = definition.documents pitch

mutual

/-- What a document spells has the audio of the document, key by key. -/
theorem rewrites_ofDocument
    (document : Document)
    {definition : Definition}
    (accepted : ofDocument document = .ok definition) :
    Rewrites document definition := by
  rw [ofDocument_eq] at accepted
  split at accepted
  · rename_i parts isCombined
    have smaller : sizeOf parts < sizeOf document := by
      refine Nat.lt_trans ?_ (Document.sizeOf_present? isCombined)
      rw [Document.list.sizeOf_spec]
      exact Nat.lt_add_of_pos_left Nat.one_pos
    obtain ⟨definitions, partsAccepted, rfl⟩ := map_eq_ok_iff.mp accepted
    obtain ⟨sound, audioAll_eq⟩ := rewrites_ofDocuments parts partsAccepted
    refine ⟨sound, fun pitch => ?_⟩
    rw [Document.audio_eq, isCombined]
    exact audioAll_eq pitch
  · cases accepted
  · rename_i notCombined
    split at accepted
    · rename_i body isPanning
      have smaller := Document.sizeOf_present? isPanning
      obtain ⟨inner, bodyAccepted, rfl⟩ := map_eq_ok_iff.mp accepted
      have rewrites := rewrites_ofDocument body bodyAccepted
      refine ⟨.panning rewrites.sound, fun pitch => ?_⟩
      rw [Panning.kind] at isPanning
      rw [Document.audio_eq, notCombined, isPanning]
      exact rewrites.audio_eq pitch
    · rename_i notPanning
      rw [Panning.kind] at notPanning
      split at accepted
      · rename_i body isTranspose
        have smaller := Document.sizeOf_present? isTranspose
        obtain ⟨inner, bodyAccepted, rfl⟩ := map_eq_ok_iff.mp accepted
        have rewrites := rewrites_ofDocument body bodyAccepted
        have declarable := Transpose.declarable_dials
        have turned :=
          turned_readDialOr body declarable.turned declarable.ordered "semitones" 0
        refine ⟨.transpose turned rewrites.sound, fun pitch => ?_⟩
        rw [Transpose.kind] at isTranspose
        rw [Document.audio_eq, notCombined, notPanning, isTranspose]
        exact rewrites.audio_eq (some (body.shifted pitch))
      · rename_i notTranspose
        rw [Transpose.kind] at notTranspose
        split at accepted
        · rename_i unit isUnit
          cases accepted
          have sound :=
            Sound.generator (isGenerator_of_generator? isUnit) (tuned_of_generator? isUnit)
          refine ⟨sound, fun pitch => ?_⟩
          rw [Document.audio_eq, notCombined, notPanning, notTranspose, source?_eq, isUnit]
          rfl
        · rename_i notUnit
          have notSource (pitch : Option Document) : document.source? pitch = none := by
            rw [source?_eq, notUnit, Option.map_none]
          split at accepted
          · rename_i isVocoder
            cases accepted
            refine ⟨.omitted, fun pitch => ?_⟩
            rw [Document.audio_eq, notCombined, notPanning, notTranspose, notSource, isVocoder]
            rfl
          · rename_i notVocoder
            split at accepted
            · rename_i body isFilter
              have smaller := Document.sizeOf_present? isFilter
              obtain ⟨⟨mode, dials⟩, isEffect, rest⟩ := bind_eq_ok_iff.mp accepted
              obtain ⟨inner, bodyAccepted, rfl⟩ := map_eq_ok_iff.mp rest
              have rewrites := rewrites_ofDocument body bodyAccepted
              refine ⟨.filter (turned_of_filter? isEffect) rewrites.sound, fun pitch => ?_⟩
              rw [Document.audio_eq, notCombined, notPanning, notTranspose, notSource, notVocoder,
                isFilter]
              simp only [Document.filtered, effect?_eq isEffect, rewrites.audio_eq pitch]
              rfl
            · cases accepted
termination_by sizeOf document

/-- What several documents spell has the audio of the documents, in order. -/
theorem rewrites_ofDocuments
    (documents : List Document)
    {definitions : List Definition}
    (accepted : ofDocuments documents = .ok definitions) :
    (combined definitions).Sound ∧
      ∀ pitch, Document.audioAll pitch documents = documentsAll pitch definitions := by
  cases documents with
  | nil =>
      rw [ofDocuments] at accepted
      cases accepted
      refine ⟨.silence, fun pitch => ?_⟩
      rw [Document.audioAll, documentsAll]
  | cons first rest =>
      rw [ofDocuments] at accepted
      obtain ⟨firstDefinition, firstAccepted, later⟩ := bind_eq_ok_iff.mp accepted
      obtain ⟨restDefinitions, restAccepted, done⟩ := bind_eq_ok_iff.mp later
      cases done
      have firstRewrites := rewrites_ofDocument first firstAccepted
      have restRewrites := rewrites_ofDocuments rest restAccepted
      refine ⟨.combined firstRewrites.sound restRewrites.1, fun pitch => ?_⟩
      rw [Document.audioAll, documentsAll, firstRewrites.audio_eq, restRewrites.2]
termination_by sizeOf documents

end

end Definition

/-- A document that spells a definition is loaded, and nothing else can go wrong. -/
theorem Instrument.ofDocument_eq
    {document : Document}
    {definition : Definition}
    (accepted : Definition.ofDocument document = .ok definition) :
    Instrument.ofDocument document =
      .ok
        { name := (document.field? "name").bind Document.text?
          bankIndex := (document.field? "index").bind Document.uint32?
          graph := definition.loaded } := by
  have sound := (Definition.rewrites_ofDocument document accepted).sound
  simp only [Instrument.ofDocument, accepted, sound.toGraph_eq.1, bind, Except.bind]

/-- Compiling a loaded document gives the rewriting of the document, with its labels. -/
theorem Instrument.compile?_ofDocument
    (document : Document)
    (instrument : Instrument)
    (accepted : Instrument.ofDocument document = .ok instrument) :
    instrument.compile? =
      (Document.resolve? (document.audio none)).map document.labelled := by
  obtain ⟨definition, isDefinition, _⟩ := bind_eq_ok_iff.mp accepted
  have rewrites := Definition.rewrites_ofDocument document isDefinition
  rw [Instrument.ofDocument_eq isDefinition] at accepted
  cases accepted
  rw [Definition.compile?_loaded rewrites.sound, rewrites.audio_eq none]
  rfl

/-- A transposed filter around a panned saw, a vocoder that is left out, and a sample. -/
theorem Instrument.compile?_ofDocument_nested :
    let saw : Document := .object [("gain", .integer 2)]
    let filter : Document :=
      .object
        [("lpf", .object [("cutoff", .integer 90000)]),
          ("panning", .object [("saw", saw)])]
    let shift : Document := .object [("filter", filter), ("semitones", .integer 30)]
    let kick : Document := .object [("file", .text "kick.wav")]
    let document : Document :=
      .object
        [("combined",
          .list
            [.object [("transpose", shift)],
              .object [("vocoder", .object [])],
              .object [("wav", kick)]]),
          ("name", .text "lead")]
    ∃ instrument,
      Instrument.ofDocument document = .ok instrument ∧
        instrument.compile? =
          some (document.labelled
            (.combined
              [filter.filtered (some (Document.wave "sawtooth" (some (shift.shifted none)) saw)),
                kick.player])) := by
  intro saw filter shift kick document
  have isDefinition : ∃ definition, Definition.ofDocument document = .ok definition := by
    simp [document, shift, filter, saw, kick, Definition.ofDocument_eq, Definition.ofDocuments,
      Document.present?, Document.field?, Entries.get?, Document.nonNull?, Panning.kind,
      Transpose.kind, Definition.generator?, Sample.kind, Definition.waveformKeys,
      Definition.filter?, Definition.modesByKey, FilterMode.key, FilterMode.kind, Functor.map,
      Except.map, bind, Except.bind, pure, Except.pure]
  obtain ⟨definition, accepted⟩ := isDefinition
  have loaded := Instrument.ofDocument_eq accepted
  refine ⟨_, loaded, ?_⟩
  rw [Instrument.compile?_ofDocument document _ loaded]
  simp [document, shift, filter, saw, kick, Document.audio_eq, Document.audioAll,
    Document.present?, Document.field?, Entries.get?, Document.nonNull?, Document.source?,
    Document.waveKeys, Document.resolve?]

end SynthGraph
