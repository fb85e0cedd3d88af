import SynthGraph.Definition.Expansion
import SynthGraph.Proofs.Definition.Layout
import SynthGraph.Proofs.Graph.Numbering

namespace SynthGraph.Definition

/-!
# The calls that build a definition

Expanding a definition connects sockets one call after the other.  A graph under
construction is kept here together with its calls and with what each of them did;
forgetting the calls gives back the expansion (`draft_toJournal`).
-/

/-- A call that connects two sockets, with what it did. -/
structure Call where
  source : Endpoint
  target : Endpoint
  change : Change
  deriving Repr, DecidableEq

/-- The call that makes a patch. -/
def Call.made (patch : Patch) : Call :=
  ⟨patch.source, patch.target, .connected⟩

/-- A graph under construction with the calls that connected its sockets so far. -/
structure Journal where
  draft : Draft
  calls : List Call

namespace Journal

/-- A journal without calls. -/
def start (draft : Draft) : Journal :=
  ⟨draft, []⟩

/-- Add a unit, which takes no call. -/
def add (journal : Journal) (unit : InstrumentUnit) : Journal :=
  { journal with draft := journal.draft.add unit .origin }

/-- Connect two sockets and note what the call did, or tell which connection is refused. -/
def patch (journal : Journal) (source target : Endpoint) : Except DefinitionError Journal :=
  match journal.draft.connect source target with
  | .ok (change, patched) => .ok ⟨patched, journal.calls ++ [⟨source, target, change⟩]⟩
  | .error cause => .error (.invalidConnection source.label target.label cause)

/-- Lead a panning to the place of every sound source. -/
def spread (panning : ModuleId) (journal : Journal) (generators : List ModuleId) :
    Except DefinitionError Journal :=
  generators.foldlM
    (fun journal generator => journal.patch ⟨panning, "PAN"⟩ ⟨generator, "PAN"⟩)
    journal

/-- Lead a pitch to every sound source that has none yet. -/
def tune (pitch : ModuleId) (journal : Journal) (generators : List ModuleId) :
    Except DefinitionError Journal :=
  generators.foldlM
    (fun journal generator =>
      if journal.draft.isConnected ⟨generator, "FREQ"⟩ then
        .ok journal
      else
        journal.patch ⟨pitch, "FREQ"⟩ ⟨generator, "FREQ"⟩)
    journal

/-- A journal in which some more units were added and some more patches made. -/
def grow (journal : Journal) (units : List InstrumentUnit) (patches : List Patch) : Journal :=
  ⟨journal.draft.grow units patches, journal.calls ++ patches.map .made⟩

theorem grow_grow
    (journal : Journal)
    (units others : List InstrumentUnit)
    (patches more : List Patch) :
    (journal.grow units patches).grow others more =
      journal.grow (units ++ others) (patches ++ more) := by
  simp [grow, Graph.grow_grow]

theorem add_eq_grow
    (journal : Journal)
    (unit : InstrumentUnit) :
    journal.add unit = journal.grow [unit] [] := by
  simp [add, grow, Graph.add_eq_grow]

end Journal

mutual

/-- Expand a definition and note the calls. -/
def enter
    (frequency consumer : ModuleId)
    (journal : Journal) :
    Definition → Except DefinitionError (List ModuleId × Journal)
  | .combined parts => enterAll frequency consumer journal parts
  | .panning body => do
      let panning := journal.draft.nextId
      let (generators, journal) ← body.enter frequency consumer (journal.add .panning)
      let journal ← journal.spread panning generators
      let journal ← journal.patch ⟨frequency, "FREQ"⟩ ⟨panning, "FREQ"⟩
      return (generators, journal)
  | .transpose dials body => do
      let transpose := journal.draft.nextId
      let (generators, journal) ←
        body.enter transpose consumer (journal.add (.transpose dials))
      let journal ← journal.tune transpose generators
      let journal ← journal.patch ⟨frequency, "FREQ"⟩ ⟨transpose, "FREQ IN"⟩
      return (generators, journal)
  | .generator unit => do
      let generator := journal.draft.nextId
      let journal ← (journal.add unit).patch ⟨generator, "OUT"⟩ ⟨consumer, "IN"⟩
      return ([generator], journal)
  | .omitted => .ok ([], journal)
  | .filter mode dials body => do
      let filter := journal.draft.nextId
      let (generators, journal) ←
        body.enter frequency filter (journal.add (.filter mode dials))
      let journal ← journal.patch ⟨filter, "OUT"⟩ ⟨consumer, "IN"⟩
      return (generators, journal)

/-- Expand several definitions one after the other and note the calls. -/
def enterAll
    (frequency consumer : ModuleId)
    (journal : Journal) :
    List Definition → Except DefinitionError (List ModuleId × Journal)
  | [] => .ok ([], journal)
  | first :: rest => do
      let (generators, journal) ← first.enter frequency consumer journal
      let (others, journal) ← enterAll frequency consumer journal rest
      return (generators ++ others, journal)

end

/-- The graph of a definition with all calls that were made for it. -/
def toJournal (definition : Definition) : Except DefinitionError Journal := do
  let (_, journal) ←
    definition.enter Instrument.inputId Instrument.outputId (.start Instrument.new.graph)
  journal.tune Instrument.inputId (generators journal.draft)

section Forgetting

/-- Steps that are alike in what is kept of them stay alike one after the other. -/
theorem map_bind_eq
    {α β γ δ : Type}
    {outcome : Except DefinitionError α}
    {plain : Except DefinitionError γ}
    {keep : α → γ}
    {next : α → Except DefinitionError β}
    {nextPlain : γ → Except DefinitionError δ}
    {keepNext : β → δ}
    (first : keep <$> outcome = plain)
    (rest : ∀ value, keepNext <$> next value = nextPlain (keep value)) :
    keepNext <$> (outcome >>= next) = plain >>= nextPlain := by
  subst first
  cases outcome with
  | error cause =>
      rfl
  | ok value =>
      exact rest value

theorem map_foldlM
    {α β γ : Type}
    {keep : α → γ}
    {step : α → β → Except DefinitionError α}
    {stepPlain : γ → β → Except DefinitionError γ}
    (same : ∀ state item, keep <$> step state item = stepPlain (keep state) item)
    (items : List β)
    (state : α) :
    keep <$> items.foldlM step state = items.foldlM stepPlain (keep state) := by
  induction items generalizing state with
  | nil =>
      rfl
  | cons item rest inductionHypothesis =>
      rw [List.foldlM_cons, List.foldlM_cons]
      exact map_bind_eq (same state item) inductionHypothesis

theorem draft_patch
    (journal : Journal)
    (source target : Endpoint) :
    Journal.draft <$> journal.patch source target = journal.draft.patch source target := by
  rw [Journal.patch, Graph.patch]
  cases journal.draft.connect source target <;> rfl

theorem draft_spread
    (panning : ModuleId)
    (generators : List ModuleId)
    (journal : Journal) :
    Journal.draft <$> journal.spread panning generators =
      spread panning journal.draft generators :=
  map_foldlM (fun journal _ => draft_patch journal _ _) generators journal

theorem draft_tune
    (pitch : ModuleId)
    (generators : List ModuleId)
    (journal : Journal) :
    Journal.draft <$> journal.tune pitch generators = tune pitch journal.draft generators := by
  refine map_foldlM (fun journal generator => ?_) generators journal
  split
  · rfl
  · exact draft_patch journal _ _

/-- Without the calls, entering a definition is expanding it. -/
theorem draft_enter
    (definition : Definition)
    (frequency consumer : ModuleId)
    (journal : Journal) :
    Prod.map id Journal.draft <$> definition.enter frequency consumer journal =
      definition.expand frequency consumer journal.draft := by
  induction definition generalizing frequency consumer journal with
  | silence =>
      rfl
  | combined first rest firstHypothesis restHypothesis =>
      exact map_bind_eq (firstHypothesis frequency consumer journal) fun placed =>
        map_bind_eq (restHypothesis frequency consumer placed.2) fun _ => rfl
  | panning body inductionHypothesis =>
      exact map_bind_eq (inductionHypothesis _ _ _) fun placed =>
        map_bind_eq (draft_spread _ placed.1 placed.2) fun spread =>
          map_bind_eq (draft_patch spread _ _) fun _ => rfl
  | transpose dials body inductionHypothesis =>
      exact map_bind_eq (inductionHypothesis _ _ _) fun placed =>
        map_bind_eq (draft_tune _ placed.1 placed.2) fun tuned =>
          map_bind_eq (draft_patch tuned _ _) fun _ => rfl
  | generator unit =>
      exact map_bind_eq (draft_patch _ _ _) fun _ => rfl
  | omitted =>
      rfl
  | filter mode dials body inductionHypothesis =>
      exact map_bind_eq (inductionHypothesis _ _ _) fun placed =>
        map_bind_eq (draft_patch placed.2 _ _) fun _ => rfl

/-- Without the calls, the journal of a definition is its graph. -/
theorem draft_toJournal
    (definition : Definition) :
    Journal.draft <$> definition.toJournal = definition.toGraph :=
  map_bind_eq (draft_enter definition _ _ _) fun placed =>
    draft_tune _ (generators placed.2.draft) placed.2

end Forgetting

end SynthGraph.Definition
