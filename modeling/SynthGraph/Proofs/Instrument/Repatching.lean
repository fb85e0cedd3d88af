import SynthGraph.Proofs.Document.Alike
import SynthGraph.Proofs.Instrument.Shape

namespace SynthGraph

/-!
# The order in which an instrument was patched

Which modules are discovered first, and so in which order emissions arrive,
depends on the order of the patches.  Units write what arrives in its order only
where several documents are combined, so without cycles the document of an
instrument is the same up to the order of what is combined
(`Instrument.compile?_of_repatched`).
-/

section Units

variable {first second : Connections} {socket : String}

/-- Emissions that arrive in two orders are alike in one document. -/
theorem Connections.alike_resolve?
    (arriving : Shuffled Emission.Alike (first.get socket) (second.get socket)) :
    Option.Rel Document.Alike (first.resolve? socket) (second.resolve? socket) :=
  Document.alike_resolve? (arriving.filterMap fun _ _ => Emission.Alike.document?)

theorem Connections.isConnected_eq
    (arriving : Shuffled Emission.Alike (first.get socket) (second.get socket)) :
    first.isConnected socket = second.isConnected socket := by
  rw [isConnected, isConnected, Bool.not_inj_iff, Bool.eq_iff_iff,
    List.isEmpty_iff_length_eq_zero, List.isEmpty_iff_length_eq_zero, arriving.length_eq]

/-- The pitch of a generator may be combined in another order. -/
theorem Generator.alike_body
    (dials : Dials)
    (arriving : Shuffled Emission.Alike (first.get "FREQ") (second.get "FREQ")) :
    Document.AlikeFields (body dials first) (body dials second) := by
  have heard := Connections.alike_resolve? arriving
  simp only [body, Connections.isConnected_eq arriving]
  split
  · generalize first.resolve? "FREQ" = pitch at heard ⊢
    generalize second.resolve? "FREQ" = otherPitch at heard ⊢
    cases heard with
    | none =>
        exact .refl _
    | some alike =>
        exact (Document.AlikeFields.refl _).insert (.same "auto_pitch" alike)
  · exact .refl _

/-- A unit makes alike emissions from what arrives in two orders. -/
theorem InstrumentUnit.alike_compile
    {unit : InstrumentUnit}
    (arriving :
      ∀ input ∈ UnitLike.inputs unit,
        Shuffled Emission.Alike (first.get input.name) (second.get input.name)) :
    (unit.compile first).Alike (unit.compile second) := by
  cases unit with
  | input =>
      exact .nothing
  | wav sample dials =>
      exact .document (.refl _)
  | output =>
      have heard := Connections.alike_resolve? (arriving (.input "IN" .audio) List.mem_cons_self)
      simp only [compile, Socket.input] at heard ⊢
      generalize first.resolve? "IN" = document at heard ⊢
      generalize second.resolve? "IN" = other at heard ⊢
      cases heard with
      | none =>
          exact .nothing
      | some alike =>
          exact .document alike
  | generator waveform dials =>
      have alike :=
        Generator.alike_body dials (arriving (.input "FREQ" .frequency) List.mem_cons_self)
      exact .document (alike.keyed _)
  | filter mode dials =>
      have heard := Connections.alike_resolve? (arriving (.input "IN" .audio) List.mem_cons_self)
      exact .document (((Document.AlikeFields.refl _).merge? heard).keyed _)
  | transpose dials =>
      have heard :=
        Connections.alike_resolve? (arriving (.input "FREQ IN" .frequency) List.mem_cons_self)
      exact .document (((Document.AlikeFields.refl _).merge? heard).keyed _)
  | panning =>
      have heard :=
        Connections.alike_resolve? (arriving (.input "FREQ" .frequency) List.mem_cons_self)
      exact .document (((Document.AlikeFields.refl _).merge? heard).keyed _)

end Units

namespace Graph

/-- The same modules, joined by the same patches in any order. -/
structure Repatched {U : Type} (graph other : Graph U) : Prop where
  modules :
    (other.modules.map fun module => (module.id, module.unit)) =
      graph.modules.map fun module => (module.id, module.unit)
  patches : ∀ patch, patch ∈ other.patches ↔ patch ∈ graph.patches

namespace Repatched

variable
  {U : Type}
  {graph other : Graph U}
  (repatched : graph.Repatched other)

include repatched

theorem unit?_eq
    (id : ModuleId) :
    other.unit? id = graph.unit? id := by
  have found := congrArg (fun pairs => (pairs.find? (·.1 = id)).map Prod.snd) repatched.modules
  simp only [List.find?_map, Option.map_map, Function.comp_def] at found
  exact found

theorem findKind?_eq
    [UnitLike U]
    (kind : String) :
    other.findKind? kind = graph.findKind? kind := by
  have ids :=
    congrArg (fun pairs => (pairs.filter (UnitLike.kind ·.2 = kind)).map Prod.fst)
      repatched.modules
  simp only [List.filter_map, List.map_map, Function.comp_def] at ids
  exact congrArg List.head? ids

variable {sinks : List ModuleId}

theorem behind_iff
    {id : ModuleId} :
    other.Behind sinks id ↔ graph.Behind sinks id := by
  have sameLive (sink : ModuleId) : (other.module? sink).isSome = (graph.module? sink).isSome := by
    simpa [unit?] using congrArg Option.isSome (repatched.unit?_eq sink)
  constructor
  · apply behind_of_joined
    · intro sink _ isThere
      rwa [sameLive] at isThere
    · intro patch member _ _
      exact ⟨patch, (repatched.patches patch).mp member, rfl⟩
  · apply behind_of_joined
    · intro sink _ isThere
      rwa [sameLive]
    · intro patch member _ _
      exact ⟨patch, (repatched.patches patch).mpr member, rfl⟩

theorem feeds_iff
    {producer consumer : ModuleId} :
    other.Feeds producer consumer ↔ graph.Feeds producer consumer := by
  simp only [Feeds, repatched.patches]

theorem acyclicBehind
    (acyclic : graph.AcyclicBehind sinks) :
    other.AcyclicBehind sinks := by
  have sameFeeds : other.Feeds = graph.Feeds := by
    funext producer consumer
    exact propext repatched.feeds_iff
  intro id behind
  rw [sameFeeds]
  exact acyclic id (repatched.behind_iff.mp behind)

/-- The same producers are discovered at a socket, in some order. -/
theorem producers_perm
    [UnitLike U]
    [LawfulUnit U]
    (endpoint : Endpoint) :
    ((graph.discover sinks).filter (· ∈ graph.producersInto endpoint)).Perm
      ((other.discover sinks).filter (· ∈ other.producersInto endpoint)) := by
  rw [List.perm_ext_iff_of_nodup ((nodup_discover graph sinks).filter _)
    ((nodup_discover other sinks).filter _)]
  intro producer
  simp only [List.mem_filter, decide_eq_true_eq, mem_discover, mem_producersInto,
    repatched.behind_iff, repatched.patches]

end Repatched

/-- Without cycles a module means alike emissions, however it was patched. -/
theorem Means.alike
    {graph other : Graph InstrumentUnit}
    (repatched : graph.Repatched other)
    {sinks : List ModuleId}
    {id : ModuleId}
    {emission otherEmission : Emission}
    (means : graph.Means () (graph.discover sinks) id emission)
    (otherMeans : other.Means () (other.discover sinks) id otherEmission) :
    emission.Alike otherEmission := by
  induction means generalizing otherEmission with
  | @unit id unit meaning found _ inductionHypothesis =>
      cases otherMeans with
      | @unit _ otherUnit otherMeaning otherFound otherFeeds =>
          rw [repatched.unit?_eq, found, Option.some.injEq] at otherFound
          subst otherFound
          apply InstrumentUnit.alike_compile
          intro input isInput
          rw [get_gathered _ _ _ _ isInput, get_gathered _ _ _ _ isInput]
          apply Shuffled.of_perm (repatched.producers_perm ⟨id, input.name⟩)
          intro producer member
          simp only [List.mem_filter, decide_eq_true_eq] at member
          have feeds := feeds_of_mem_producersInto member.2
          exact inductionHypothesis producer feeds
            (otherFeeds producer (repatched.feeds_iff.mpr feeds))

end Graph

namespace Instrument

/-- A name and a bank slot are written into alike documents. -/
theorem alike_label
    (instrument : Instrument)
    {document other : Document}
    (alike : document.Alike other) :
    (instrument.label document).Alike (instrument.label other) := by
  cases alike with
  | refl =>
      exact .refl _
  | @object fields others same =>
      have alikeFields : Document.AlikeFields fields others := same
      have named (name : String) := alikeFields.insert (.same "name" (.refl (.text name)))
      have placed (index : UInt32) :=
        alikeFields.insert (.same "index" (.refl (.natural index.toNat)))
      cases isName : instrument.name <;> cases isIndex : instrument.bankIndex <;>
        simp only [label, isName, isIndex]
      · exact .object alikeFields
      · exact .object (placed _)
      · exact .object (named _)
      · exact .object ((named _).insert (.same "index" (.refl _)))

/-- A repatched output emits what is alike. -/
theorem alike_emission
    {graph other : Graph InstrumentUnit}
    (wellPatched : graph.WellPatched)
    (otherWellPatched : other.WellPatched)
    (repatched : graph.Repatched other)
    {output : ModuleId}
    (isThere : (graph.module? output).isSome)
    (acyclic : graph.AcyclicBehind [output]) :
    Option.Rel Emission.Alike
      ((graph.reduce () [output]).get? output) ((other.reduce () [output]).get? output) := by
  have behind : graph.Behind [output] output :=
    Graph.behind_singleton_iff.mpr ⟨isThere, .refl⟩
  have otherBehind := repatched.behind_iff.mpr behind
  have reduces := Graph.reducesToMeaning_of_acyclic wellPatched () acyclic
  have otherReduces :=
    Graph.reducesToMeaning_of_acyclic otherWellPatched () (repatched.acyclicBehind acyclic)
  obtain ⟨emission, isEmission, means⟩ := reduces.exists_get? behind
  obtain ⟨otherEmission, isOther, otherMeans⟩ := otherReduces.exists_get? otherBehind
  rw [isEmission, isOther]
  exact .some (means.alike repatched otherMeans)

/--
The order in which an instrument was patched makes a difference to the order of
what is combined in its document, and to nothing else.
-/
theorem compile?_of_repatched
    (first second : Instrument)
    (firstReachable : first.Reachable)
    (secondReachable : second.Reachable)
    (sameName : second.name = first.name)
    (sameBankIndex : second.bankIndex = first.bankIndex)
    (repatched : first.graph.Repatched second.graph)
    (acyclic : first.graph.AcyclicBehind first.graph.outputs) :
    Option.Rel Document.Alike first.compile? second.compile? := by
  have sameLabel : second.label = first.label := by
    funext document
    simp only [label, sameName, sameBankIndex]
  have sameOutput := repatched.findKind?_eq InstrumentUnit.outputKind
  simp only [compile?, sameOutput, sameLabel, emissions, Option.bind_eq_bind]
  cases isOutput : first.graph.findKind? InstrumentUnit.outputKind with
  | none =>
      exact .none
  | some output =>
      rw [Graph.outputs_eq (Option.mem_toList.mpr isOutput)] at acyclic
      have heard :=
        alike_emission firstReachable.storable.wellPatched secondReachable.storable.wellPatched
          repatched (Graph.live_of_findKind? isOutput) acyclic
      simp only [Option.bind_some]
      generalize (first.graph.reduce () [output]).get? output = emission at heard ⊢
      generalize (second.graph.reduce () [output]).get? output = otherEmission at heard ⊢
      cases heard with
      | none =>
          exact .none
      | some alike =>
          cases alike with
          | nothing =>
              exact .none
          | document alikeContent =>
              exact .some (first.alike_label alikeContent)

/-- Two sines through one filter, and one of them beside it. -/
def layered (connections : List (Endpoint × Endpoint)) : List (Operation InstrumentUnit) :=
  [.add (.ofWaveform .sine) .origin,
    .add (.ofWaveform .saw) .origin,
    .add (.ofMode .lowPass) .origin] ++
    connections.map fun ends => .connect ends.1 ends.2

/-- In both places the two sounds arrive in another order. -/
theorem compile?_of_repatched_layered :
    let first : Instrument :=
      ⟨some "pad", none, Instrument.new.graph.run (layered
        [(⟨2, "OUT"⟩, ⟨4, "IN"⟩), (⟨3, "OUT"⟩, ⟨4, "IN"⟩),
          (⟨4, "OUT"⟩, ⟨1, "IN"⟩), (⟨2, "OUT"⟩, ⟨1, "IN"⟩)])⟩
    let second : Instrument :=
      ⟨some "pad", none, Instrument.new.graph.run (layered
        [(⟨3, "OUT"⟩, ⟨4, "IN"⟩), (⟨2, "OUT"⟩, ⟨4, "IN"⟩),
          (⟨2, "OUT"⟩, ⟨1, "IN"⟩), (⟨4, "OUT"⟩, ⟨1, "IN"⟩)])⟩
    first.graph.discover [1] = [1, 4, 2, 3] ∧
      second.graph.discover [1] = [1, 2, 4, 3] ∧
      Option.Rel Document.Alike first.compile? second.compile? := by
  intro first second
  have firstReachable : first.Reachable :=
    reachable_run (Operation.drawn_of_isPlain (by decide +kernel)) _ _
  have secondReachable : second.Reachable :=
    reachable_run (Operation.drawn_of_isPlain (by decide +kernel)) _ _
  have permuted : second.graph.patches.Perm first.graph.patches := by
    decide +kernel
  have repatched : first.graph.Repatched second.graph :=
    ⟨by decide +kernel, fun _ => permuted.mem_iff⟩
  have acyclic : first.graph.AcyclicBehind first.graph.outputs := by
    let height : ModuleId → Nat := fun id => [0, 3, 1, 1, 2].getD id 0
    exact Graph.acyclicBehind_of_wellFounded (Graph.wellFounded_feeds height (by decide +kernel)) _
  have alike :=
    compile?_of_repatched first second firstReachable secondReachable rfl rfl repatched acyclic
  exact ⟨by decide +kernel, by decide +kernel, alike⟩

end Instrument

end SynthGraph
