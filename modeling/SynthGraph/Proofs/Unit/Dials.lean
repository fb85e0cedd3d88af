import SynthGraph.Proofs.Entries
import SynthGraph.Dial

namespace SynthGraph.Dials

/-!
# Turning dials

The names of the dials of a unit differ, so turning the dial with a name changes
that dial wherever it stands and leaves the others alone.  Turning several dials
one after the other is turning each of them once.

Values stay in their ranges, so turning declared dials to the values of dials
that were turned before gives these dials back (`Turned.foldl_values`).
-/

/-- The dials after a change to the dial with a name. -/
def change (update : Dial → Dial) (dials : Dials) (id : String) : Dials :=
  dials.map fun dial => if dial.id = id then update dial else dial

theorem set?_eq_change
    {dials : Dials}
    (idsNodup : (dials.map Dial.id).Nodup)
    (id : String)
    (value : Double) :
    Dials.set? dials id value =
      if id ∈ dials.map Dial.id then some (change (·.set value) dials id) else none := by
  induction dials with
  | nil =>
      rfl
  | cons dial rest inductionHypothesis =>
      rw [List.map_cons, List.nodup_cons] at idsNodup
      by_cases isFirst : dial.id = id
      · have restSame : change (·.set value) rest id = rest := by
          refine Eq.trans (List.map_congr_left ?_) (List.map_id rest)
          intro other member
          have different : other.id ≠ id := by
            rintro rfl
            exact idsNodup.1 (isFirst ▸ List.mem_map_of_mem member)
          simp [different]
        rw [change] at restSame
        simp [Dials.set?, change, isFirst, restSame]
      · rw [Dials.set?, if_neg isFirst, inductionHypothesis idsNodup.2]
        by_cases isLater : id ∈ rest.map Dial.id
        · simp only [List.map_cons, List.mem_cons, isLater, or_true, if_true, Option.map_some]
          simp [change, isFirst]
        · simp [isLater, Ne.symm isFirst]

/-- Turning a dial changes the dial with the name, if there is one. -/
theorem set_eq_change
    {dials : Dials}
    (idsNodup : (dials.map Dial.id).Nodup)
    (id : String)
    (value : Double) :
    Dials.set dials id value = change (·.set value) dials id := by
  rw [Dials.set, set?_eq_change idsNodup]
  split
  · rfl
  · rename_i absent
    refine (Eq.trans (List.map_congr_left ?_) (List.map_id dials)).symm
    intro dial member
    have different : dial.id ≠ id := by
      rintro rfl
      exact absent (List.mem_map_of_mem member)
    simp [different]

theorem ids_change
    {update : Dial → Dial}
    (keepsId : ∀ dial, (update dial).id = dial.id)
    (dials : Dials)
    (id : String) :
    (change update dials id).map Dial.id = dials.map Dial.id := by
  rw [change, List.map_map]
  apply List.map_congr_left
  intro dial _
  by_cases isNamed : dial.id = id <;> simp [isNamed, keepsId]

/-- Steps that each change the dial of another name change each of these dials once. -/
theorem foldl_eq_map
    {α : Type}
    (name : α → String)
    {step : Dials → α → Dials}
    {update : String → Dial → Dial}
    (keepsId : ∀ id dial, (update id dial).id = dial.id)
    {items : List α}
    (changes :
      ∀ item ∈ items, ∀ dials : Dials, (dials.map Dial.id).Nodup →
        step dials item = change (update (name item)) dials (name item))
    (namesNodup : (items.map name).Nodup)
    {dials : Dials}
    (idsNodup : (dials.map Dial.id).Nodup) :
    items.foldl step dials =
      dials.map fun dial => if dial.id ∈ items.map name then update dial.id dial else dial := by
  induction items generalizing dials with
  | nil =>
      simp
  | cons item rest inductionHypothesis =>
      rw [List.map_cons, List.nodup_cons] at namesNodup
      have restChanges := fun other member => changes other (List.mem_cons_of_mem item member)
      have keptIds : ((change (update (name item)) dials (name item)).map Dial.id).Nodup := by
        rw [ids_change (keepsId (name item))]
        exact idsNodup
      rw [List.foldl_cons, changes item List.mem_cons_self dials idsNodup,
        inductionHypothesis restChanges namesNodup.2 keptIds, change, List.map_map]
      apply List.map_congr_left
      intro dial _
      by_cases isFirst : dial.id = name item
      · have notLater : (update (name item) dial).id ∉ rest.map name := by
          rw [keepsId, isFirst]
          exact namesNodup.1
        have isNamed : dial.id ∈ (item :: rest).map name :=
          List.mem_cons.mpr (Or.inl isFirst)
        simp only [Function.comp_apply]
        rw [if_pos isFirst, if_neg notLater, if_pos isNamed, isFirst]
      · have named : dial.id ∈ (item :: rest).map name ↔ dial.id ∈ rest.map name := by
          rw [List.map_cons, List.mem_cons, or_iff_right isFirst]
        simp only [Function.comp_apply, named]
        rw [if_neg isFirst]

/-- The value of a dial lies in its range, or is no number. -/
def InRange (dial : Dial) : Prop :=
  dial.clamp dial.value = dial.value

section Ranges

theorem less_irrefl
    {format : Format}
    (number : Binary format) :
    number.less number = false := by
  unfold Binary.less
  cases number.place? <;> simp

theorem less_eq_false_of_atMost
    {format : Format}
    {least greatest : Binary format}
    (ordered : least.atMost greatest) :
    greatest.less least = false := by
  unfold Binary.atMost Binary.less Binary.same at ordered
  unfold Binary.less
  cases leastPlace : least.place? with
  | none =>
      cases greatest.place? <;> rfl
  | some first =>
      cases greatestPlace : greatest.place? with
      | none =>
          rfl
      | some second =>
          simp only [leastPlace, greatestPlace, Bool.or_eq_true, decide_eq_true_eq] at ordered
          simp only [decide_eq_false_iff_not]
          omega

/-- A value brought into a range is in the range. -/
theorem clamp_clamp
    {dial : Dial}
    (ordered : dial.isOrdered)
    (value : Double) :
    dial.clamp (dial.clamp value) = dial.clamp value := by
  have greatestKept := less_eq_false_of_atMost ordered
  by_cases below : value.less dial.least
  · simp [Dial.clamp, below, less_irrefl, greatestKept]
  · by_cases above : dial.greatest.less value
    · simp [Dial.clamp, below, above, less_irrefl, greatestKept]
    · simp [Dial.clamp, below, above]

end Ranges

section Turning

/-- Dials as a unit may declare them: told apart by name, each with a value in its range. -/
structure Declarable (dials : Dials) : Prop where
  ids_nodup : (dials.map Dial.id).Nodup
  ordered : ∀ dial ∈ dials, dial.isOrdered
  inRange : ∀ dial ∈ dials, InRange dial

instance (dials : Dials) : Decidable (Declarable dials) :=
  decidable_of_iff
    ((dials.map Dial.id).Nodup ∧ (∀ dial ∈ dials, dial.isOrdered) ∧
      ∀ dial ∈ dials, dial.clamp dial.value = dial.value)
    ⟨fun ⟨nodup, ordered, inRange⟩ => ⟨nodup, ordered, inRange⟩,
      fun ⟨nodup, ordered, inRange⟩ => ⟨nodup, ordered, inRange⟩⟩

/-- The declared dials, each turned to some value in its range. -/
def Turned (declared dials : Dials) : Prop :=
  List.Forall₂ (fun dial turned => dial.set turned.value = turned) declared dials

variable {declared dials : Dials}

/-- Declared dials count as turned to their own values. -/
theorem Declarable.turned
    (declarable : Declarable declared) :
    Turned declared declared := by
  rw [Turned, List.forall₂_same]
  intro dial member
  have unturned : dial.clamp dial.value = dial.value := declarable.inRange dial member
  simp [Dial.set, unturned]

theorem Turned.ids
    (turned : Turned declared dials) :
    dials.map Dial.id = declared.map Dial.id := by
  induction turned with
  | nil =>
      rfl
  | cons isTurned _ inductionHypothesis =>
      rw [List.map_cons, List.map_cons, inductionHypothesis, ← isTurned]
      rfl

theorem Turned.set?
    {result : Dials}
    {id : String}
    {value : Double}
    (turned : Turned declared dials)
    (ordered : ∀ dial ∈ declared, dial.isOrdered)
    (isSet : Dials.set? dials id value = some result) :
    Turned declared result := by
  unfold Turned at turned ⊢
  induction turned generalizing result with
  | nil =>
      cases isSet
  | @cons dial turnedDial rest turnedRest isTurned restTurned inductionHypothesis =>
      rw [List.forall_mem_cons] at ordered
      rw [Dials.set?] at isSet
      split at isSet
      · cases isSet
        refine List.Forall₂.cons ?_ restTurned
        have overwritten : turnedDial.set value = dial.set value := by
          rw [← isTurned]
          rfl
        have again : dial.set (dial.clamp value) = dial.set value := by
          rw [Dial.set, clamp_clamp ordered.1, Dial.set]
        rw [overwritten]
        exact again
      · obtain ⟨restResult, restSet, rfl⟩ := Option.map_eq_some_iff.mp isSet
        exact List.Forall₂.cons isTurned (inductionHypothesis ordered.2 restSet)

theorem Turned.set
    (turned : Turned declared dials)
    (ordered : ∀ dial ∈ declared, dial.isOrdered)
    (id : String)
    (value : Double) :
    Turned declared (Dials.set dials id value) := by
  unfold Dials.set
  cases isSet : Dials.set? dials id value with
  | none =>
      exact turned
  | some result =>
      exact turned.set? ordered isSet

/-- A dial turned to the entry of a name, if there is one. -/
def turnTo (entries : Entries Double) (id : String) (dial : Dial) : Dial :=
  match Entries.get? id entries with
  | some value => dial.set value
  | none => dial

/-- Turning the dials that entries name turns each of them to its entry. -/
theorem foldl_set_eq_map
    {entries : Entries Double}
    (namesNodup : (entries.map Prod.fst).Nodup)
    (idsNodup : (dials.map Dial.id).Nodup) :
    entries.foldl (fun dials entry => Dials.set dials entry.1 entry.2) dials =
      dials.map fun dial => turnTo entries dial.id dial := by
  have keepsId (id : String) (dial : Dial) : (turnTo entries id dial).id = dial.id := by
    unfold turnTo
    split <;> rfl
  have changes :
      ∀ entry ∈ entries, ∀ others : Dials, (others.map Dial.id).Nodup →
        Dials.set others entry.1 entry.2 = change (turnTo entries entry.1) others entry.1 := by
    intro entry member others othersNodup
    have sameTurn : turnTo entries entry.1 = (·.set entry.2) := by
      funext dial
      simp only [turnTo, Entries.get?_of_mem namesNodup member]
    rw [set_eq_change othersNodup, sameTurn]
  rw [foldl_eq_map Prod.fst keepsId changes namesNodup idsNodup]
  apply List.map_congr_left
  intro dial _
  split
  · rfl
  · rename_i notNamed
    unfold turnTo
    split
    · rename_i found
      exact absurd (List.mem_map_of_mem (Entries.mem_of_get? found)) notNamed
    · rfl

/-- The values of dials by name. -/
def values (dials : Dials) : Entries Double :=
  Entries.ofList (dials.map fun dial => (dial.id, dial.value))

theorem get?_values
    (idsNodup : (dials.map Dial.id).Nodup)
    {dial : Dial}
    (member : dial ∈ dials) :
    Entries.get? dial.id (values dials) = some dial.value := by
  refine Entries.get?_ofList ?_ (List.mem_map_of_mem member)
  rw [List.map_map]
  exact idsNodup

/-- Turning declared dials to the values of turned ones gives the turned ones. -/
theorem Turned.foldl_values
    (turned : Turned declared dials)
    (declarable : Declarable declared) :
    (values dials).foldl (fun dials entry => Dials.set dials entry.1 entry.2) declared = dials := by
  have namesNodup : ((values dials).map Prod.fst).Nodup :=
    Entries.names_nodup (Entries.sorted_ofList _)
  have idsNodup : (dials.map Dial.id).Nodup := turned.ids ▸ declarable.ids_nodup
  rw [foldl_set_eq_map namesNodup declarable.ids_nodup]
  have each :
      List.Forall₂ (fun dial turned => turnTo (values dials) dial.id dial = turned)
        declared dials := by
    have found := fun dial (member : dial ∈ dials) => get?_values idsNodup member
    have paired := (List.forall₂_and_left _ _).mpr ⟨found, turned.flip⟩
    refine paired.flip.imp ?_
    rintro dial turnedDial ⟨isFound, isTurned⟩
    have sameId : turnedDial.id = dial.id := by
      rw [← isTurned]
      rfl
    rw [sameId] at isFound
    simp only [turnTo, isFound]
    exact isTurned
  rwa [← List.forall₂_map_left_iff, List.forall₂_eq_eq_eq] at each

end Turning

section Values

variable {declared dials : Dials}

/-- Every dial is found under its name. -/
theorem find?_of_mem
    (idsNodup : (dials.map Dial.id).Nodup)
    {dial : Dial}
    (member : dial ∈ dials) :
    Dials.find? dials dial.id = some dial := by
  cases isFound : Dials.find? dials dial.id with
  | none =>
      simpa using List.find?_eq_none.mp isFound dial member
  | some other =>
      have sameId : other.id = dial.id := by
        simpa using List.find?_some isFound
      have isThere := List.mem_of_find?_eq_some isFound
      rw [List.inj_on_of_nodup_map idsNodup isThere member sameId]

theorem value_of_mem
    (idsNodup : (dials.map Dial.id).Nodup)
    {dial : Dial}
    (member : dial ∈ dials) :
    Dials.value dials dial.id = dial.value := by
  simp [Dials.value, Dials.get?, find?_of_mem idsNodup member]

/-- A declared dial is found in the turned dials, at a value in its range. -/
theorem Turned.exists_dial
    (turned : Turned declared dials)
    {dial : Dial}
    (member : dial ∈ declared) :
    ∃ turnedDial ∈ dials, dial.set turnedDial.value = turnedDial := by
  unfold Turned at turned
  induction turned with
  | nil =>
      cases member
  | cons isTurned _ inductionHypothesis =>
      rcases List.mem_cons.mp member with rfl | later
      · exact ⟨_, List.mem_cons_self, isTurned⟩
      · obtain ⟨turnedDial, isThere, isSet⟩ := inductionHypothesis later
        exact ⟨turnedDial, List.mem_cons_of_mem _ isThere, isSet⟩

/-- Turned dials hold a value in its range for every declared dial. -/
theorem Turned.value_mem
    (turned : Turned declared dials)
    (idsNodup : (declared.map Dial.id).Nodup)
    {dial : Dial}
    (member : dial ∈ declared) :
    (∃ turnedDial ∈ dials,
        turnedDial.id = dial.id ∧ turnedDial.value = Dials.value dials dial.id) ∧
      dial.clamp (Dials.value dials dial.id) = Dials.value dials dial.id := by
  obtain ⟨turnedDial, isThere, isSet⟩ := turned.exists_dial member
  have sameId : turnedDial.id = dial.id := by
    rw [← isSet]
    rfl
  have value : Dials.value dials dial.id = turnedDial.value := by
    rw [← sameId]
    exact value_of_mem (turned.ids ▸ idsNodup) isThere
  rw [value]
  exact ⟨⟨turnedDial, isThere, sameId, rfl⟩, congrArg Dial.value isSet⟩

/-- Whether all dials stand at finite numbers. -/
def AreFinite (dials : Dials) : Prop :=
  ∀ dial ∈ dials, dial.value.finite?.isSome

instance (dials : Dials) : Decidable (AreFinite dials) :=
  inferInstanceAs (Decidable (∀ dial ∈ dials, dial.value.finite?.isSome))

end Values

end SynthGraph.Dials
