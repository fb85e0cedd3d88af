import SynthGraph.Definition.Expansion
import SynthGraph.Proofs.Unit.Catalog

namespace SynthGraph

/-!
# The layout of a definition

The modules of an expanded definition are numbered from the outside in, and the
patches between them depend on the numbers only.  This module says, without
building a graph, which units a definition needs, which of its modules are sound
sources, which of them lead their audio out of it and which still look for a
pitch, and which patches are made, in order.
-/

namespace Patch

/-- Audio led on to what takes audio in. -/
def audio (source target : ModuleId) : Patch :=
  ⟨⟨source, "OUT"⟩, ⟨target, "IN"⟩, .audio⟩

/-- A pitch led to a sound source or to a panning. -/
def pitch (source target : ModuleId) : Patch :=
  ⟨⟨source, "FREQ"⟩, ⟨target, "FREQ"⟩, .frequency⟩

/-- A pitch led to a transpose. -/
def shift (source target : ModuleId) : Patch :=
  ⟨⟨source, "FREQ"⟩, ⟨target, "FREQ IN"⟩, .frequency⟩

/-- A place led to a sound source. -/
def place (source target : ModuleId) : Patch :=
  ⟨⟨source, "PAN"⟩, ⟨target, "PAN"⟩, .panning⟩

end Patch

namespace Definition

/-- Filtering a list without repetition for the members of a part of it leaves the part. -/
theorem filter_mem_of_sublist
    {part whole : List ModuleId}
    (isPart : part.Sublist whole)
    (wholeNodup : whole.Nodup) :
    whole.filter (· ∈ part) = part := by
  induction isPart with
  | slnil =>
      rfl
  | @cons part whole id isPart inductionHypothesis =>
      rw [List.nodup_cons] at wholeNodup
      have notPart : id ∉ part := fun member => wholeNodup.1 (isPart.subset member)
      rw [List.filter_cons_of_neg (by simpa using notPart), inductionHypothesis wholeNodup.2]
  | @cons_cons part whole id isPart inductionHypothesis =>
      rw [List.nodup_cons] at wholeNodup
      rw [List.filter_cons_of_pos (by simp)]
      congr 1
      refine Eq.trans (List.filter_congr ?_) (inductionHypothesis wholeNodup.2)
      intro other member
      have different : other ≠ id := by
        rintro rfl
        exact wholeNodup.1 member
      simp [different]

/-- Induction over definitions, where combined sounds are taken one by one. -/
@[induction_eliminator]
theorem induction
    {motive : Definition → Prop}
    (silence : motive (combined []))
    (combined :
      ∀ first rest, motive first → motive (combined rest) → motive (combined (first :: rest)))
    (panning : ∀ body, motive body → motive (panning body))
    (transpose : ∀ dials body, motive body → motive (transpose dials body))
    (generator : ∀ unit, motive (generator unit))
    (omitted : motive omitted)
    (filter : ∀ mode dials body, motive body → motive (filter mode dials body))
    (definition : Definition) :
    motive definition :=
  Definition.rec
    (fun _ parts => parts)
    panning
    transpose
    generator
    omitted
    filter
    silence
    (fun first rest => combined first rest)
    definition

mutual

/-- The units of the modules of a definition, in the order of their numbers. -/
def units : Definition → List InstrumentUnit
  | combined parts => unitsAll parts
  | panning body => .panning :: body.units
  | transpose dials body => .transpose dials :: body.units
  | generator unit => [unit]
  | omitted => []
  | filter mode dials body => .filter mode dials :: body.units

/-- The units of several definitions. -/
def unitsAll : List Definition → List InstrumentUnit
  | [] => []
  | first :: rest => first.units ++ unitsAll rest

end

mutual

/-- The sound sources of a definition whose modules are numbered from `start`. -/
def sources (start : ModuleId) : Definition → List ModuleId
  | combined parts => sourcesAll start parts
  | panning body => body.sources (start + 1)
  | transpose _ body => body.sources (start + 1)
  | generator _ => [start]
  | omitted => []
  | filter _ _ body => body.sources (start + 1)

/-- The sound sources of several definitions. -/
def sourcesAll (start : ModuleId) : List Definition → List ModuleId
  | [] => []
  | first :: rest => first.sources start ++ sourcesAll (start + first.units.length) rest

end

mutual

/-- The sound sources that no transpose of the definition drives. -/
def unpitched (start : ModuleId) : Definition → List ModuleId
  | combined parts => unpitchedAll start parts
  | panning body => body.unpitched (start + 1)
  | transpose _ _ => []
  | generator _ => [start]
  | omitted => []
  | filter _ _ body => body.unpitched (start + 1)

/-- The sound sources of several definitions that none of their transposes drives. -/
def unpitchedAll (start : ModuleId) : List Definition → List ModuleId
  | [] => []
  | first :: rest => first.unpitched start ++ unpitchedAll (start + first.units.length) rest

end

mutual

/-- The modules whose audio leaves the definition. -/
def heads (start : ModuleId) : Definition → List ModuleId
  | combined parts => headsAll start parts
  | panning body => body.heads (start + 1)
  | transpose _ body => body.heads (start + 1)
  | generator _ => [start]
  | omitted => []
  | filter _ _ _ => [start]

/-- The modules whose audio leaves several definitions. -/
def headsAll (start : ModuleId) : List Definition → List ModuleId
  | [] => []
  | first :: rest => first.heads start ++ headsAll (start + first.units.length) rest

end

mutual

/--
The patches of a definition whose pitch derives from `frequency` and whose audio
goes to `consumer`, in the order in which they are made.
-/
def wires (frequency consumer start : ModuleId) : Definition → List Patch
  | combined parts => wiresAll frequency consumer start parts
  | panning body =>
      body.wires frequency consumer (start + 1)
        ++ ((body.sources (start + 1)).map (.place start) ++ [.pitch frequency start])
  | transpose _ body =>
      body.wires start consumer (start + 1)
        ++ ((body.unpitched (start + 1)).map (.pitch start) ++ [.shift frequency start])
  | generator _ => [.audio start consumer]
  | omitted => []
  | filter _ _ body =>
      body.wires frequency start (start + 1) ++ [.audio start consumer]

/-- The patches of several definitions. -/
def wiresAll (frequency consumer start : ModuleId) : List Definition → List Patch
  | [] => []
  | first :: rest =>
      first.wires frequency consumer start
        ++ wiresAll frequency consumer (start + first.units.length) rest

end

/-- Numbers that increase and lie in a range. -/
structure Within (start count : Nat) (ids : List Nat) : Prop where
  increasing : ids.Pairwise (· < ·)
  bounds : ∀ id ∈ ids, start ≤ id ∧ id < start + count

namespace Within

variable {start count : Nat} {ids : List Nat}

theorem nil : Within start count [] :=
  ⟨List.Pairwise.nil, by simp⟩

theorem singleton : Within start 1 [start] :=
  ⟨List.pairwise_singleton _ _, by simp⟩

theorem append
    {otherCount : Nat}
    {others : List Nat}
    (first : Within start count ids)
    (rest : Within (start + count) otherCount others) :
    Within start (count + otherCount) (ids ++ others) := by
  constructor
  · rw [List.pairwise_append]
    refine ⟨first.increasing, rest.increasing, ?_⟩
    intro id member other otherMember
    exact Nat.lt_of_lt_of_le (first.bounds id member).2 (rest.bounds other otherMember).1
  · intro id member
    rcases List.mem_append.mp member with isFirst | isRest
    · have := first.bounds id isFirst
      omega
    · have := rest.bounds id isRest
      omega

/-- A range may be extended by a number before it. -/
theorem widen
    (within : Within (start + 1) count ids) :
    Within start (count + 1) ids := by
  refine ⟨within.increasing, ?_⟩
  intro id member
  have := within.bounds id member
  omega

theorem first
    (start count : Nat) :
    Within start (count + 1) [start] :=
  ⟨List.pairwise_singleton _ _, by simp⟩

theorem nodup
    (within : Within start count ids) :
    ids.Nodup :=
  within.increasing.imp Nat.ne_of_lt

end Within

theorem within_sources
    (definition : Definition)
    (start : ModuleId) :
    Within start definition.units.length (definition.sources start) := by
  induction definition generalizing start with
  | silence =>
      exact .nil
  | combined first rest firstHypothesis restHypothesis =>
      rw [units, unitsAll, List.length_append]
      exact (firstHypothesis start).append (restHypothesis _)
  | panning body inductionHypothesis =>
      exact (inductionHypothesis (start + 1)).widen
  | transpose _ body inductionHypothesis =>
      exact (inductionHypothesis (start + 1)).widen
  | generator unit =>
      exact .singleton
  | omitted =>
      exact .nil
  | filter _ _ body inductionHypothesis =>
      exact (inductionHypothesis (start + 1)).widen

theorem within_heads
    (definition : Definition)
    (start : ModuleId) :
    Within start definition.units.length (definition.heads start) := by
  induction definition generalizing start with
  | silence =>
      exact .nil
  | combined first rest firstHypothesis restHypothesis =>
      rw [units, unitsAll, List.length_append]
      exact (firstHypothesis start).append (restHypothesis _)
  | panning body inductionHypothesis =>
      exact (inductionHypothesis (start + 1)).widen
  | transpose _ body inductionHypothesis =>
      exact (inductionHypothesis (start + 1)).widen
  | generator unit =>
      exact .singleton
  | omitted =>
      exact .nil
  | filter _ _ body _ =>
      exact .first start body.units.length

/-- Sound sources without a pitch are sound sources, in the same order. -/
theorem unpitched_sublist_sources
    (definition : Definition)
    (start : ModuleId) :
    (definition.unpitched start).Sublist (definition.sources start) := by
  induction definition generalizing start with
  | silence =>
      exact List.nil_sublist _
  | combined first rest firstHypothesis restHypothesis =>
      exact (firstHypothesis start).append (restHypothesis _)
  | panning body inductionHypothesis =>
      exact inductionHypothesis (start + 1)
  | transpose _ body _ =>
      exact List.nil_sublist _
  | generator unit =>
      exact List.Sublist.refl _
  | omitted =>
      exact List.nil_sublist _
  | filter _ _ body inductionHypothesis =>
      exact inductionHypothesis (start + 1)

/-- A number is one of the numbers of a definition laid out from `start`. -/
def Inside (start : Nat) (definition : Definition) (id : Nat) : Prop :=
  start ≤ id ∧ id < start + definition.units.length

section Inside

variable {start id : Nat}

theorem Inside.of_first
    {first : Definition}
    {rest : List Definition}
    (inside : Inside start first id) :
    Inside start (combined (first :: rest)) id := by
  simp only [Inside, units, unitsAll, List.length_append] at inside ⊢
  omega

theorem Inside.of_rest
    {first : Definition}
    {rest : List Definition}
    (inside : Inside (start + first.units.length) (combined rest) id) :
    Inside start (combined (first :: rest)) id := by
  simp only [Inside, units, unitsAll, List.length_append] at inside ⊢
  omega

/-- The body of a definition comes after the module that stands around it. -/
theorem Inside.of_body
    {body outer : Definition}
    {unit : InstrumentUnit}
    (outerUnits : outer.units = unit :: body.units)
    (inside : Inside (start + 1) body id) :
    Inside start outer id := by
  simp only [Inside, outerUnits, List.length_cons] at inside ⊢
  omega

theorem Inside.head
    {outer : Definition}
    {unit : InstrumentUnit}
    {rest : List InstrumentUnit}
    (outerUnits : outer.units = unit :: rest) :
    Inside start outer start := by
  simp only [Inside, outerUnits, List.length_cons]
  omega

end Inside

/-- Patches lead from a module of the definition or from where its pitch derives. -/
theorem wires_source
    {definition : Definition}
    {frequency consumer start : ModuleId}
    {patch : Patch}
    (member : patch ∈ definition.wires frequency consumer start) :
    patch.source = ⟨frequency, "FREQ"⟩ ∨ Inside start definition patch.source.module := by
  induction definition generalizing frequency consumer start with
  | silence =>
      cases member
  | combined first rest firstHypothesis restHypothesis =>
      rcases List.mem_append.mp member with isFirst | isRest
      · exact (firstHypothesis isFirst).imp_right .of_first
      · exact (restHypothesis isRest).imp_right .of_rest
  | panning body inductionHypothesis =>
      simp only [wires, List.mem_append, List.mem_map, List.mem_singleton] at member
      rcases member with isBody | ⟨generator, _, rfl⟩ | rfl
      · exact (inductionHypothesis isBody).imp_right (.of_body rfl)
      · exact Or.inr (.head rfl)
      · exact Or.inl rfl
  | transpose dials body inductionHypothesis =>
      simp only [wires, List.mem_append, List.mem_map, List.mem_singleton] at member
      rcases member with isBody | ⟨generator, _, rfl⟩ | rfl
      · rcases inductionHypothesis isBody with isPitch | inside
        · rw [isPitch]
          exact Or.inr (.head rfl)
        · exact Or.inr (inside.of_body rfl)
      · exact Or.inr (.head rfl)
      · exact Or.inl rfl
  | generator unit =>
      obtain rfl := List.mem_singleton.mp member
      exact Or.inr (.head rfl)
  | omitted =>
      cases member
  | filter mode dials body inductionHypothesis =>
      simp only [wires, List.mem_append, List.mem_singleton] at member
      rcases member with isBody | rfl
      · exact (inductionHypothesis isBody).imp_right (.of_body rfl)
      · exact Or.inr (.head rfl)

/-- Patches lead to a module of the definition or to where its audio goes. -/
theorem wires_target
    {definition : Definition}
    {frequency consumer start : ModuleId}
    {patch : Patch}
    (member : patch ∈ definition.wires frequency consumer start) :
    patch.target = ⟨consumer, "IN"⟩ ∨ Inside start definition patch.target.module := by
  induction definition generalizing frequency consumer start with
  | silence =>
      cases member
  | combined first rest firstHypothesis restHypothesis =>
      rcases List.mem_append.mp member with isFirst | isRest
      · exact (firstHypothesis isFirst).imp_right .of_first
      · exact (restHypothesis isRest).imp_right .of_rest
  | panning body inductionHypothesis =>
      simp only [wires, List.mem_append, List.mem_map, List.mem_singleton] at member
      rcases member with isBody | ⟨generator, isSource, rfl⟩ | rfl
      · exact (inductionHypothesis isBody).imp_right (.of_body rfl)
      · have bounds := (within_sources body (start + 1)).bounds generator isSource
        exact Or.inr (Inside.of_body rfl bounds)
      · exact Or.inr (.head rfl)
  | transpose dials body inductionHypothesis =>
      simp only [wires, List.mem_append, List.mem_map, List.mem_singleton] at member
      rcases member with isBody | ⟨generator, isUnpitched, rfl⟩ | rfl
      · exact (inductionHypothesis isBody).imp_right (.of_body rfl)
      · have isSource := (unpitched_sublist_sources body (start + 1)).subset isUnpitched
        have bounds := (within_sources body (start + 1)).bounds generator isSource
        exact Or.inr (Inside.of_body rfl bounds)
      · exact Or.inr (.head rfl)
  | generator unit =>
      obtain rfl := List.mem_singleton.mp member
      exact Or.inl rfl
  | omitted =>
      cases member
  | filter mode dials body inductionHypothesis =>
      simp only [wires, List.mem_append, List.mem_singleton] at member
      rcases member with isBody | rfl
      · rcases inductionHypothesis isBody with isAudio | inside
        · rw [isAudio]
          exact Or.inr (.head rfl)
        · exact Or.inr (inside.of_body rfl)
      · exact Or.inl rfl

/-- No patch of a definition ends at a pitch socket of a module that is not part of it. -/
theorem not_touches_of_outside
    {definition : Definition}
    {start module : ModuleId}
    (frequency consumer : ModuleId)
    (outside : ¬ Inside start definition module)
    (different : frequency ≠ module) :
    ∀ patch ∈ definition.wires frequency consumer start,
      ¬ patch.touches ⟨module, "FREQ"⟩ := by
  intro patch member touches
  simp only [Patch.touches, Bool.or_eq_true, decide_eq_true_eq] at touches
  rcases touches with isSource | isTarget
  · rcases wires_source member with isPitch | inside
    · rw [isSource, Endpoint.mk.injEq] at isPitch
      exact different isPitch.1.symm
    · rw [isSource] at inside
      exact outside inside
  · rcases wires_target member with isAudio | inside
    · rw [isTarget, Endpoint.mk.injEq] at isAudio
      exact absurd isAudio.2 (by decide)
    · rw [isTarget] at inside
      exact outside inside

theorem within_unpitched
    (definition : Definition)
    (start : ModuleId) :
    Within start definition.units.length (definition.unpitched start) :=
  ⟨(within_sources definition start).increasing.sublist (unpitched_sublist_sources _ _),
    fun id member => (within_sources definition start).bounds id
      ((unpitched_sublist_sources _ _).subset member)⟩

/-- The sound sources without a pitch are those to which no patch leads one. -/
theorem mem_unpitched_iff
    {definition : Definition}
    {frequency start generator : Nat}
    (consumer : Nat)
    (before : frequency < start)
    (isSource : generator ∈ definition.sources start) :
    generator ∈ definition.unpitched start ↔
      ∀ patch ∈ definition.wires frequency consumer start,
        ¬ patch.touches ⟨generator, "FREQ"⟩ := by
  induction definition generalizing frequency consumer start with
  | silence =>
      cases isSource
  | combined first rest firstHypothesis restHypothesis =>
      have split :
          (∀ patch ∈ (Definition.combined (first :: rest)).wires frequency consumer start,
              ¬ patch.touches ⟨generator, "FREQ"⟩) ↔
            (∀ patch ∈ first.wires frequency consumer start,
              ¬ patch.touches ⟨generator, "FREQ"⟩) ∧
            ∀ patch ∈ (Definition.combined rest).wires frequency consumer
                (start + first.units.length),
              ¬ patch.touches ⟨generator, "FREQ"⟩ :=
        List.forall_mem_append
      have later : frequency < start + first.units.length :=
        Nat.lt_add_right _ before
      rw [split]
      rcases List.mem_append.mp isSource with isFirst | isRest
      · have bounds := (within_sources first start).bounds generator isFirst
        have notRest : ¬ Inside (start + first.units.length) (.combined rest) generator :=
          fun inside => Nat.not_le_of_lt bounds.2 inside.1
        have untouched :=
          not_touches_of_outside frequency consumer notRest
            (Nat.ne_of_lt (Nat.lt_of_lt_of_le before bounds.1))
        have notUnpitched :
            generator ∉ (Definition.combined rest).unpitched (start + first.units.length) :=
          fun member => notRest ((within_unpitched _ _).bounds generator member)
        rw [and_iff_left untouched, ← firstHypothesis consumer before isFirst]
        exact (List.mem_append.trans (or_iff_left notUnpitched))
      · have bounds := (within_sources (.combined rest) _).bounds generator isRest
        have notFirst : ¬ Inside start first generator :=
          fun inside => Nat.not_le_of_lt inside.2 bounds.1
        have untouched :=
          not_touches_of_outside frequency consumer notFirst
            (Nat.ne_of_lt (Nat.lt_of_lt_of_le later bounds.1))
        have notUnpitched : generator ∉ first.unpitched start :=
          fun member => notFirst ((within_unpitched _ _).bounds generator member)
        rw [and_iff_right untouched, ← restHypothesis consumer later isRest]
        exact (List.mem_append.trans (or_iff_right notUnpitched))
  | panning body inductionHypothesis =>
      have bounds := (within_sources body (start + 1)).bounds generator isSource
      have split := inductionHypothesis consumer (Nat.lt_succ_of_lt before) isSource
      have places :
          ∀ patch ∈ (body.sources (start + 1)).map (Patch.place start) ++
              [Patch.pitch frequency start],
            ¬ patch.touches ⟨generator, "FREQ"⟩ := by
        intro patch member
        simp only [List.mem_append, List.mem_map, List.mem_singleton] at member
        rcases member with ⟨other, _, rfl⟩ | rfl
        · simp [Patch.place, Patch.touches]
        · have notPitch : frequency ≠ generator :=
            Nat.ne_of_lt (Nat.lt_of_lt_of_le (Nat.lt_succ_of_lt before) bounds.1)
          have notPanning : start ≠ generator :=
            Nat.ne_of_lt bounds.1
          simp [Patch.pitch, Patch.touches, notPitch, notPanning]
      rw [wires, List.forall_mem_append, and_iff_left places]
      exact split
  | transpose dials body inductionHypothesis =>
      have split := inductionHypothesis consumer (Nat.lt_succ_self start) isSource
      refine iff_of_false List.not_mem_nil ?_
      intro untouched
      rw [wires, List.forall_mem_append, List.forall_mem_append] at untouched
      have isUnpitched := split.mpr untouched.1
      exact untouched.2.1 _ (List.mem_map_of_mem isUnpitched) (by simp [Patch.pitch, Patch.touches])
  | generator unit =>
      refine iff_of_true isSource ?_
      intro patch member
      obtain rfl := List.mem_singleton.mp member
      simp [Patch.audio, Patch.touches]
  | omitted =>
      cases isSource
  | filter mode dials body inductionHypothesis =>
      have split := inductionHypothesis start (Nat.lt_succ_of_lt before) isSource
      have audio :
          ∀ patch ∈ [Patch.audio start consumer], ¬ patch.touches ⟨generator, "FREQ"⟩ := by
        simp [Patch.audio, Patch.touches]
      rw [wires, List.forall_mem_append, and_iff_left audio]
      exact split

/-- Sound sources are sound sources, and all dials are those of their kinds, turned. -/
inductive Sound : Definition → Prop where
  | silence : Sound (combined [])
  | combined {first : Definition} {rest : List Definition} :
      Sound first → Sound (combined rest) → Sound (combined (first :: rest))
  | panning {body : Definition} : Sound body → Sound (panning body)
  | transpose {dials : Dials} {body : Definition} :
      Dials.Turned Transpose.dials dials → Sound body → Sound (transpose dials body)
  | generator {unit : InstrumentUnit} :
      unit.isGenerator → CatalogUnit.Tuned unit → Sound (generator unit)
  | omitted : Sound omitted
  | filter {mode : FilterMode} {dials : Dials} {body : Definition} :
      Dials.Turned mode.dials dials → Sound body → Sound (filter mode dials body)

/-- At the number of a sound source stands a sound source. -/
theorem Sound.generator_of_mem_sources
    {definition : Definition}
    (sound : definition.Sound)
    {start generator : Nat}
    (isSource : generator ∈ definition.sources start) :
    ∃ place unit,
      generator = start + place ∧ definition.units[place]? = some unit ∧ unit.isGenerator := by
  induction sound generalizing start with
  | silence =>
      cases isSource
  | @combined first rest _ _ firstHypothesis restHypothesis =>
      rcases List.mem_append.mp isSource with isFirst | isRest
      · obtain ⟨place, unit, rfl, atPlace, isGenerator⟩ := firstHypothesis isFirst
        obtain ⟨inside, _⟩ := List.getElem?_eq_some_iff.mp atPlace
        refine ⟨place, unit, rfl, ?_, isGenerator⟩
        rw [units, unitsAll, List.getElem?_append_left inside, atPlace]
      · obtain ⟨place, unit, rfl, atPlace, isGenerator⟩ := restHypothesis isRest
        refine ⟨first.units.length + place, unit, Nat.add_assoc _ _ _, ?_, isGenerator⟩
        rw [units, unitsAll, List.getElem?_append_right (Nat.le_add_right _ _),
          Nat.add_sub_cancel_left]
        exact atPlace
  | panning _ inductionHypothesis =>
      obtain ⟨place, unit, rfl, atPlace, isGenerator⟩ := inductionHypothesis isSource
      exact ⟨place + 1, unit, Nat.add_right_comm _ _ _, atPlace, isGenerator⟩
  | transpose _ _ inductionHypothesis =>
      obtain ⟨place, unit, rfl, atPlace, isGenerator⟩ := inductionHypothesis isSource
      exact ⟨place + 1, unit, Nat.add_right_comm _ _ _, atPlace, isGenerator⟩
  | @generator unit isGenerator _ =>
      obtain rfl := List.mem_singleton.mp isSource
      exact ⟨0, unit, rfl, rfl, isGenerator⟩
  | omitted =>
      cases isSource
  | filter _ _ inductionHypothesis =>
      obtain ⟨place, unit, rfl, atPlace, isGenerator⟩ := inductionHypothesis isSource
      exact ⟨place + 1, unit, Nat.add_right_comm _ _ _, atPlace, isGenerator⟩

/-- The dials of all placed units are those of their kinds, turned. -/
theorem Sound.tuned
    {definition : Definition}
    (sound : definition.Sound) :
    ∀ unit ∈ definition.units, CatalogUnit.Tuned unit := by
  induction sound with
  | silence | omitted =>
      simp [units, unitsAll]
  | combined _ _ firstHypothesis restHypothesis =>
      rw [units, unitsAll, List.forall_mem_append]
      exact ⟨firstHypothesis, restHypothesis⟩
  | panning _ inductionHypothesis =>
      exact List.forall_mem_cons.mpr ⟨List.Forall₂.nil, inductionHypothesis⟩
  | transpose turned _ inductionHypothesis =>
      exact List.forall_mem_cons.mpr ⟨turned, inductionHypothesis⟩
  | generator _ tuned =>
      exact List.forall_mem_singleton.mpr tuned
  | filter turned _ inductionHypothesis =>
      exact List.forall_mem_cons.mpr ⟨turned, inductionHypothesis⟩

end Definition

end SynthGraph
