import SynthGraph.Proofs.Graph.BreadthFirst
import SynthGraph.Proofs.Graph.CompileOrder

namespace SynthGraph.Graph

/-!
# The plain compile order

Where every patch leads from a module to one that was found before it, the
countdown always lets the last of the remaining modules go, so modules are
compiled in reverse order of discovery (`emission_eq_reverse`).  This is so on
trees, where every module is found through the only module that it feeds.
-/

variable {U : Type} {graph : Graph U} {discovery sinks : List ModuleId}

/-- Every patch between modules of the list leads to the one that comes earlier. -/
def Descends (graph : Graph U) (discovery : List ModuleId) : Prop :=
  ∀ patch ∈ graph.patches,
    patch.source.module ∈ discovery →
      patch.target.module ∈ discovery →
        discovery.idxOf patch.target.module < discovery.idxOf patch.source.module

instance (graph : Graph U) (discovery : List ModuleId) : Decidable (graph.Descends discovery) :=
  inferInstanceAs (Decidable (∀ patch ∈ graph.patches, _))

instance (graph : Graph U) (producer consumer : ModuleId) :
    Decidable (graph.Feeds producer consumer) :=
  decidable_of_iff _ mem_feeders

/-- Every module but the sinks feeds exactly one module of the list, and the sinks feed none. -/
structure TreeLike (graph : Graph U) (sinks discovery : List ModuleId) : Prop where
  feeds_one :
    ∀ id ∈ discovery, id ∉ sinks →
      ∃ consumer ∈ discovery,
        graph.Feeds id consumer ∧
          ∀ other ∈ discovery, graph.Feeds id other → other = consumer
  sinks_feed_none :
    ∀ sink ∈ sinks, ∀ consumer ∈ discovery, ¬ graph.Feeds sink consumer

instance (graph : Graph U) (sinks discovery : List ModuleId) :
    Decidable (graph.TreeLike sinks discovery) :=
  decidable_of_iff
    ((∀ id ∈ discovery, id ∉ sinks →
        ∃ consumer ∈ discovery,
          graph.Feeds id consumer ∧
            ∀ other ∈ discovery, graph.Feeds id other → other = consumer) ∧
      ∀ sink ∈ sinks, ∀ consumer ∈ discovery, ¬ graph.Feeds sink consumer)
    ⟨fun ⟨feedsOne, feedNone⟩ => ⟨feedsOne, feedNone⟩,
      fun ⟨feedsOne, feedNone⟩ => ⟨feedsOne, feedNone⟩⟩

/-- If producers have higher ranks than consumers, the ranks that are left go from the highest. -/
theorem Goes.eq_reverse_range
    (discoveryNodup : discovery.Nodup)
    (descends : graph.Descends discovery)
    {gone order : List Nat}
    (goes : graph.Goes discovery gone order)
    {count : Nat}
    (bounded : count ≤ discovery.length)
    (left : ∀ rank < discovery.length, rank ∉ gone ↔ rank < count) :
    order = (List.range count).reverse := by
  -- All producers of the last rank that is left have gone.
  have ready :
      ∀ {gone : List Nat} {last : Nat}, last < discovery.length →
        (∀ rank < discovery.length, rank ∉ gone → rank ≤ last) →
          graph.unmet discovery gone last = 0 := by
    intro gone last inside isLast
    rw [unmet_eq_zero_iff discoveryNodup (List.getElem?_eq_getElem inside)]
    rintro producer other ⟨patch, member, rfl, isTarget⟩ atOther
    obtain ⟨otherInside, isSource⟩ := List.getElem?_eq_some_iff.mp atOther
    have higher :=
      descends patch member (isSource ▸ List.getElem_mem otherInside)
        (isTarget ▸ List.getElem_mem inside)
    rw [isTarget, ← isSource, discoveryNodup.idxOf_getElem, discoveryNodup.idxOf_getElem]
      at higher
    by_contra notGone
    exact Nat.not_le_of_lt higher (isLast other otherInside notGone)
  induction goes generalizing count with
  | @stop gone waits =>
      cases count with
      | zero =>
          rfl
      | succ last =>
          have notGone := (left last bounded).mpr (Nat.lt_succ_self last)
          refine absurd (ready bounded ?_) (waits last bounded notGone)
          intro rank inside rankLeft
          exact Nat.le_of_lt_succ ((left rank inside).mp rankLeft)
  | @next gone order rank inside notGone _ isGreatest _ inductionHypothesis =>
      cases count with
      | zero =>
          exact absurd ((left rank inside).mp notGone) (Nat.not_lt_zero rank)
      | succ last =>
          have lastLeft := (left last bounded).mpr (Nat.lt_succ_self last)
          have lastReady : graph.unmet discovery gone last = 0 := by
            refine ready bounded ?_
            intro other otherInside otherLeft
            exact Nat.le_of_lt_succ ((left other otherInside).mp otherLeft)
          obtain rfl : rank = last :=
            Nat.le_antisymm (Nat.le_of_lt_succ ((left rank inside).mp notGone))
              (isGreatest last bounded lastLeft lastReady)
          rw [inductionHypothesis (Nat.le_of_succ_le bounded), List.range_succ,
            List.reverse_append]
          · rfl
          · intro other otherInside
            rw [List.mem_append, not_or, left other otherInside, List.mem_singleton]
            omega

/-- Modules that lead to earlier ones are compiled in reverse order. -/
theorem emissionOrder_eq_reverse
    (discoveryNodup : discovery.Nodup)
    (descends : graph.Descends discovery) :
    graph.emissionOrder discovery = discovery.reverse := by
  have ordered : graph.orderedRanks discovery = (List.range discovery.length).reverse := by
    apply (goes_orderedRanks graph discoveryNodup).eq_reverse_range discoveryNodup descends
      (Nat.le_refl _)
    simp
  have noneRemains :
      (List.range discovery.length).reverse.filter (· ∉ graph.orderedRanks discovery) = [] := by
    simp [ordered]
  simp only [emissionOrder, noneRemains, List.append_nil]
  rw [ordered, List.filterMap_reverse, filterMap_range_getElem?]

/-- On a tree every module is found through the only module that it feeds. -/
theorem TreeLike.descends
    (treeLike : graph.TreeLike sinks (graph.discover sinks)) :
    graph.Descends (graph.discover sinks) := by
  intro patch member isSource isTarget
  have feeds : graph.Feeds patch.source.module patch.target.module := ⟨patch, member, rfl, rfl⟩
  have notSink : patch.source.module ∉ sinks := fun isSink =>
    treeLike.sinks_feed_none _ isSink _ isTarget feeds
  obtain ⟨consumer, found⟩ :=
    exists_foundThrough isSource fun isLive => notSink (mem_liveSinks.mp isLive).1
  obtain ⟨_, _, _, only⟩ := treeLike.feeds_one _ isSource notSink
  rw [only _ isTarget feeds, ← only _ found.visited found.feeds]
  exact found.idxOf_lt

/-- Where the compile order of a schedule is the plain one. -/
structure CompilesPlainly
    (graph : Graph U)
    (sinks : List ModuleId)
    (schedule : Schedule) :
    Prop where
  /-- If all patches lead to earlier modules, the walk is compiled backwards. -/
  emission_eq_reverse :
    graph.Descends schedule.discovery → schedule.emission = schedule.discovery.reverse
  /-- This is so on trees and on several trees side by side. -/
  descends_of_treeLike :
    graph.TreeLike sinks schedule.discovery → graph.Descends schedule.discovery

/-- Schedules are compiled in the plain order wherever patches lead to earlier modules. -/
theorem schedule_compilesPlainly
    (graph : Graph U)
    (sinks : List ModuleId) :
    graph.CompilesPlainly sinks (graph.schedule sinks) where
  emission_eq_reverse := emissionOrder_eq_reverse (nodup_discover graph sinks)
  descends_of_treeLike := TreeLike.descends

/-- Two trees side by side, and two notes that share a pulse and, twice over, a range. -/
theorem schedule_compilesPlainly_shared :
    let trees : Graph InstrumentUnit :=
      empty.run
        [.add .output .origin,
          .add .output .origin,
          .add (.ofMode .lowPass) .origin,
          .add (.ofWaveform .sine) .origin,
          .add (.ofWaveform .saw) .origin,
          .add (.transpose Transpose.dials) .origin,
          .connect ⟨2, "OUT"⟩ ⟨0, "IN"⟩,
          .connect ⟨4, "OUT"⟩ ⟨1, "IN"⟩,
          .connect ⟨3, "OUT"⟩ ⟨2, "IN"⟩,
          .connect ⟨5, "FREQ"⟩ ⟨3, "FREQ"⟩]
    let notes : Graph SequenceUnit :=
      empty.run
        [.add .input .origin,
          .add (.playNote PlayNote.dials) .origin,
          .add (.playNote PlayNote.dials) .origin,
          .add (.pulse Pulse.dials) .origin,
          .add (.range .sweep RangeKind.dials) .origin,
          .connect ⟨0, "CLOCK"⟩ ⟨3, "CLOCK"⟩,
          .connect ⟨3, "TRIG"⟩ ⟨1, "TRIG"⟩,
          .connect ⟨3, "TRIG"⟩ ⟨2, "TRIG"⟩,
          .connect ⟨4, "OUT"⟩ ⟨1, "NOTE"⟩,
          .connect ⟨4, "OUT"⟩ ⟨1, "VEL"⟩,
          .connect ⟨4, "OUT"⟩ ⟨2, "NOTE"⟩]
    trees.TreeLike [0, 1] (trees.schedule [0, 1]).discovery ∧
      (trees.schedule [0, 1]).emission = [5, 3, 4, 2, 1, 0] ∧
      notes.Descends (notes.schedule [1, 2]).discovery ∧
      ¬ notes.TreeLike [1, 2] (notes.schedule [1, 2]).discovery ∧
      (notes.schedule [1, 2]).emission = [0, 4, 3, 2, 1] := by
  intro trees notes
  have treeLike : trees.TreeLike [0, 1] (trees.schedule [0, 1]).discovery := by
    decide +kernel
  have descends : notes.Descends (notes.schedule [1, 2]).discovery := by
    decide +kernel
  have onTrees := schedule_compilesPlainly trees [0, 1]
  have onNotes := schedule_compilesPlainly notes [1, 2]
  refine ⟨treeLike, ?_, descends, by decide +kernel, ?_⟩
  · rw [onTrees.emission_eq_reverse (onTrees.descends_of_treeLike treeLike)]
    decide +kernel
  · rw [onNotes.emission_eq_reverse descends]
    decide +kernel

end SynthGraph.Graph
