import SynthGraph.Proofs.GraphFile.Loading
import SynthGraph.Proofs.GraphFile.RoundTrip
import SynthGraph.Proofs.Number.Legible
import SynthGraph.Proofs.Unit.Ranges

namespace SynthGraph

/-!
# Files that cannot be loaded again

A number that is not finite is written as null, which no reader of numbers
accepts.  The ranges of dials are finite and far from the limits of 64 bits, so
a dial is read again unless it was turned to what is no number.  Places must be
finite, and the pitch of a sample must survive being read.

Main statements: exactly these files are accepted again, and one dial that is
turned to what is no number spoils the file of its graph.
-/

open CatalogUnit

namespace Binary

/-- Numbers whose magnitude has a rank below this one lie below 2 ^ 930. -/
def modestLimit : Nat :=
  (1952 + 1) * Format.double.binade

/-- Whether a number is finite and far from the limits of 64 bits. -/
def isModest (number : Double) : Bool :=
  number.place?.any fun place => place.natAbs < modestLimit

/-- Numbers between modest ones are modest. -/
theorem isModest_of_atMost
    {least number greatest : Double}
    (leastModest : least.isModest)
    (greatestModest : greatest.isModest)
    (atLeast : least.atMost number)
    (atMost : number.atMost greatest) :
    number.isModest := by
  obtain ⟨first, place, firstPlace, numberPlace, firstBelow⟩ := atMost_iff.mp atLeast
  obtain ⟨samePlace, last, isSame, lastPlace, lastAbove⟩ := atMost_iff.mp atMost
  obtain rfl := Option.some.inj (numberPlace.symm.trans isSame)
  simp only [isModest, firstPlace, lastPlace, numberPlace, Option.any_some, decide_eq_true_eq]
    at leastModest greatestModest ⊢
  omega

/-- A modest number is finite. -/
theorem exists_finite_of_isModest
    {number : Double}
    (modest : number.isModest) :
    ∃ value : Finite Format.double,
      number = .finite value ∧ value.rank.val < (1952 + 1) * Format.double.binade := by
  have limit : modestLimit ≤ Format.double.limit := Nat.mul_le_mul_right _ (by decide)
  cases number with
  | finite value =>
      refine ⟨value, rfl, ?_⟩
      have below : value.place.natAbs < modestLimit := by
        simpa [isModest, place?] using modest
      have magnitude : value.place.natAbs = value.rank.val := by
        unfold Finite.place
        split <;> omega
      rwa [magnitude] at below
  | infinite negative =>
      cases negative <;> simp [isModest, place?] at modest <;> omega
  | notANumber =>
      simp [isModest, place?] at modest

end Binary

namespace GraphFile

/-- A modest number is read from its written form. -/
theorem isSome_rereadDouble?_of_isModest
    {number : Double}
    (modest : number.isModest) :
    (rereadDouble? number).isSome := by
  obtain ⟨value, rfl, below⟩ := Binary.exists_finite_of_isModest modest
  have read : (value.numeral .double).double?.isSome :=
    Finite.isSome_double?_numeral (by decide) 1952 below (by decide)
  rw [rereadDouble?, Json.ofBinary, Json.double?, Option.isSome_map]
  exact read

/-- What is no number is not read. -/
theorem rereadDouble?_notANumber : rereadDouble? .notANumber = none :=
  rfl

/-- A number of 32 bits is read from its written form exactly if it is finite. -/
theorem isSome_rereadSingle?_iff {number : Single} :
    (rereadSingle? number).isSome ↔ number.finite?.isSome := by
  cases number with
  | infinite | notANumber =>
      exact iff_of_false (by simp [rereadSingle?, Json.ofBinary, Json.single32?])
        (by simp [Binary.finite?])
  | finite value =>
      refine iff_of_true ?_ (by simp [Binary.finite?])
      have read : (value.numeral .single).double?.isSome :=
        Finite.isSome_double?_numeral (by decide) 254 value.rank.isLt (by decide)
      rw [rereadSingle?, Json.ofBinary, Json.single32?]
      split
      · rfl
      · rw [Option.isSome_map]
        exact read

end GraphFile

section Modules

variable {U : Type} [UnitLike U] [CatalogUnit U]

/-- Whether the dials of every kind of unit have modest ranges. -/
def CatalogUnit.HasModestRanges (U : Type) [UnitLike U] [CatalogUnit U] : Prop :=
  ∀ unit : U, ∀ dial ∈ declared unit, dial.least.isModest ∧ dial.greatest.isModest

theorem InstrumentUnit.hasModestRanges : HasModestRanges InstrumentUnit := by
  intro unit
  change ∀ dial ∈ unit.declared, dial.least.isModest ∧ dial.greatest.isModest
  cases unit with
  | filter mode => cases mode <;> simp only [InstrumentUnit.declared] <;> decide +kernel
  | input | output | generator | wav | transpose | panning =>
      simp only [InstrumentUnit.declared]
      decide +kernel

theorem SequenceUnit.hasModestRanges : HasModestRanges SequenceUnit := by
  intro unit
  change ∀ dial ∈ unit.declared, dial.least.isModest ∧ dial.greatest.isModest
  cases unit <;> simp only [SequenceUnit.declared] <;> decide +kernel

/-- What the file of a graph needs of a module so that it can be loaded again. -/
structure Module.Legible (module : Module U) : Prop where
  x : module.position.x.finite?.isSome
  y : module.position.y.finite?.isSome
  /-- Every dial is turned to a number. -/
  dials : ∀ dial ∈ UnitLike.dials module.unit, dial.value ≠ .notANumber
  /-- A sample has a pitch that is read from its written form. -/
  sample :
    ∀ sample ∈ CatalogUnit.sample? module.unit,
      (GraphFile.rereadDouble? sample.basePitch).isSome

theorem Module.legible_iff {module : Module U} :
    module.Legible ↔
      module.position.x.finite?.isSome ∧ module.position.y.finite?.isSome ∧
        (∀ dial ∈ UnitLike.dials module.unit, dial.value ≠ .notANumber) ∧
          ∀ sample ∈ CatalogUnit.sample? module.unit,
            (GraphFile.rereadDouble? sample.basePitch).isSome :=
  ⟨fun legible => ⟨legible.x, legible.y, legible.dials, legible.sample⟩,
    fun ⟨x, y, dials, sample⟩ => ⟨x, y, dials, sample⟩⟩

instance (module : Module U) : Decidable module.Legible :=
  decidable_of_iff _ Module.legible_iff.symm

namespace GraphFile

/-- A dial of a unit is read again exactly if it is turned to a number. -/
theorem isSome_rereadDouble?_dial_iff
    (modestRanges : HasModestRanges U)
    {unit : U}
    (tuned : Tuned unit)
    {dial : Dial}
    (member : dial ∈ UnitLike.dials unit) :
    (rereadDouble? dial.value).isSome ↔ dial.value ≠ .notANumber := by
  constructor
  · intro read isNone
    rw [isNone, rereadDouble?_notANumber] at read
    cases read
  · intro isNumber
    obtain ⟨new, newMember, isTurned⟩ := Dials.Turned.exists_declared tuned member
    obtain ⟨leastModest, greatestModest⟩ := modestRanges unit new newMember
    obtain ⟨atLeast, atMost⟩ := (tuned.keepsRanges.held dial member).resolve_right isNumber
    obtain ⟨least, greatest⟩ := Dials.bounds_of_set isTurned
    rw [← least] at leastModest
    rw [← greatest] at greatestModest
    exact isSome_rereadDouble?_of_isModest
      (Binary.isModest_of_atMost leastModest greatestModest atLeast atMost)

/-- The node of a module is read exactly if the module is legible. -/
theorem isSome_reread?_captureModule_iff
    (modestRanges : HasModestRanges U)
    {module : Module U}
    (tuned : Tuned module.unit) :
    (captureModule CatalogUnit.sample? module).reread?.isSome ↔ module.Legible := by
  have idsNodup : (((UnitLike.dials module.unit).map
      fun dial => (dial.id, dial.value)).map Prod.fst).Nodup := by
    rw [List.map_map]
    exact tuned.keepsRanges.ids_nodup
  have values := (Entries.perm_ofList idsNodup).map Prod.snd
  have dials :
      (∀ number ∈ (captureModule CatalogUnit.sample? module).dials.entries.map Prod.snd,
          (rereadDouble? number).isSome)
        ↔ ∀ dial ∈ UnitLike.dials module.unit, dial.value ≠ .notANumber := by
    rw [List.map_map] at values
    change (∀ number ∈ (Entries.ofList _).map Prod.snd, _) ↔ _
    simp only [values.mem_iff]
    rw [List.forall_mem_map]
    exact forall₂_congr fun dial member =>
      isSome_rereadDouble?_dial_iff modestRanges tuned member
  have sample :
      (∀ number ∈ (CatalogUnit.sample? module.unit).toList.map Sample.basePitch,
          (rereadDouble? number).isSome)
        ↔ ∀ sample ∈ CatalogUnit.sample? module.unit,
          (rereadDouble? sample.basePitch).isSome := by
    simp only [List.forall_mem_map, Option.mem_toList, Option.mem_def]
  rw [FileNode.isSome_reread?_iff, FileNode.doubles, List.forall_mem_append, dials,
    Module.legible_iff]
  simp only [FileNode.singles, List.forall_mem_cons, isSome_rereadSingle?_iff]
  change (_ ∧ ∀ number ∈ (CatalogUnit.sample? module.unit).toList.map Sample.basePitch, _) ∧ _ ↔ _
  rw [sample]
  constructor
  · rintro ⟨⟨isNumber, pitch⟩, x, y, _⟩
    exact ⟨x, y, isNumber, pitch⟩
  · rintro ⟨x, y, isNumber, pitch⟩
    exact ⟨⟨isNumber, pitch⟩, x, y, List.forall_mem_nil _⟩

/-- The nodes of a graph are read exactly if its modules are legible. -/
theorem forall_isSome_reread?_iff
    (modestRanges : HasModestRanges U)
    {graph : Graph U}
    (storable : graph.Storable) :
    (∀ node ∈ graph.modules.map (captureModule CatalogUnit.sample?), node.reread?.isSome) ↔
      ∀ module ∈ graph.modules, module.Legible := by
  rw [List.forall_mem_map]
  exact forall₂_congr fun module member =>
    isSome_reread?_captureModule_iff modestRanges (storable.tuned module member)

/-- A saved file is loaded under a condition, and otherwise its text is no graph file. -/
structure LoadsIf (file : GraphFile) (condition : Prop) : Prop where
  loaded : condition → ∃ read, load (some file.saved) = .ok read
  malformed : ¬ condition → load (some file.saved) = .error .malformed

/-- A file with the modules of a graph is loaded if they are legible. -/
theorem LoadsIf.of_captured
    (modestRanges : HasModestRanges U)
    {graph : Graph U}
    (storable : graph.Storable)
    {file : GraphFile}
    (known : file.isCompatible)
    (captured : file.nodes = graph.modules.map (captureModule CatalogUnit.sample?)) :
    file.LoadsIf (∀ module ∈ graph.modules, module.Legible) := by
  have outcome := load_saved_of_isCompatible file known
  rw [captured, forall_isSome_reread?_iff modestRanges storable] at outcome
  exact ⟨outcome.1, outcome.2⟩

end GraphFile

end Modules

namespace GraphFile

theorem loadsIf_ofInstrument
    {instrument : Instrument}
    (storable : instrument.graph.Storable) :
    (ofInstrument instrument).LoadsIf (∀ module ∈ instrument.graph.modules, module.Legible) :=
  .of_captured InstrumentUnit.hasModestRanges storable rfl rfl

theorem loadsIf_ofSequence
    (name : String)
    {sequence : Sequence}
    (storable : sequence.graph.Storable) :
    (ofSequence name sequence).LoadsIf (∀ module ∈ sequence.graph.modules, module.Legible) :=
  .of_captured SequenceUnit.hasModestRanges storable rfl rfl

/--
The file of a reachable instrument or sequence is loaded again exactly if every
module stands at a finite place, every dial is turned to a number, and the
pitches of samples are read from their written forms.
-/
theorem loads_saved
    {instrument : Instrument}
    {sequence : Sequence}
    (instrumentReachable : instrument.Reachable)
    (sequenceReachable : sequence.Reachable)
    (name : String) :
    (ofInstrument instrument).LoadsIf (∀ module ∈ instrument.graph.modules, module.Legible) ∧
      (ofSequence name sequence).LoadsIf (∀ module ∈ sequence.graph.modules, module.Legible) :=
  ⟨loadsIf_ofInstrument instrumentReachable.storable,
    loadsIf_ofSequence name sequenceReachable.storable⟩

/-- A sample and a filter, both away from the corner, with a dial beyond its range. -/
def placedSound : List (Operation InstrumentUnit) :=
  [.add (.wav ⟨"kick.wav", true, 261.6⟩ Generator.dials) ⟨120.5, -80.25⟩,
    .add (.ofMode .lowPass) ⟨0.1, 1e10⟩,
    .setDial 3 "cutoff" (.infinite false),
    .connect ⟨2, "OUT"⟩ ⟨3, "IN"⟩]

/-- A filter whose cutoff is turned to what is no number. -/
def spoiledSound : List (Operation InstrumentUnit) :=
  [.add (.ofMode .lowPass) .origin, .setDial 2 "cutoff" .notANumber]

theorem drawn_placed_spoiled :
    (∀ operation ∈ placedSound, operation.Drawn) ∧ ∀ operation ∈ spoiledSound, operation.Drawn :=
  ⟨Operation.drawn_of_isPlain (by decide +kernel), Operation.drawn_of_isPlain (by decide +kernel)⟩

/-- A dial beyond its range is saved at the bound; nothing else is in the way either. -/
theorem loads_saved_placed :
    let instrument : Instrument := ⟨some "kick", none, Instrument.new.graph.run placedSound⟩
    let sequence : Sequence := ⟨5, (Sequence.new 5).graph.run gappedBeat⟩
    (instrument.graph.modules.length = 4 ∧
        ∃ file, load (some (ofInstrument instrument).saved) = .ok file) ∧
      ∃ file, load (some (ofSequence "groove" sequence).saved) = .ok file := by
  obtain ⟨sound, beat⟩ :=
    loads_saved (Instrument.reachable_run drawn_placed_spoiled.1 (some "kick") none)
      (Sequence.reachable_run drawn_gapped.2 5) "groove"
  exact ⟨⟨by decide +kernel, sound.loaded (by decide +kernel)⟩, beat.loaded (by decide +kernel)⟩

/-- One dial that is turned to what is no number keeps the whole file from being loaded. -/
theorem malformed_saved_spoiled :
    let instrument : Instrument := ⟨none, none, Instrument.new.graph.run spoiledSound⟩
    instrument.Reachable ∧
      load (some (ofInstrument instrument).saved) = .error .malformed := by
  have reachable := Instrument.reachable_run drawn_placed_spoiled.2 none none
  exact ⟨reachable, (loadsIf_ofInstrument reachable.storable).malformed (by decide +kernel)⟩

end GraphFile

end SynthGraph
