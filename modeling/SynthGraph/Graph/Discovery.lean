import SynthGraph.Graph.Basic

namespace SynthGraph.Graph

/-!
# Discovery

From its last modules a graph is walked backwards, breadth first, from every
module to the modules that feed it.  The walk is finite because a step only
adds modules that some patch starts from and that were not seen before.
-/

variable {U : Type}

/-- The first occurrences of modules that were not seen before. -/
def unseen (seen : List ModuleId) : List ModuleId → List ModuleId
  | [] => []
  | id :: rest =>
      if id ∈ seen then
        unseen seen rest
      else
        id :: unseen (seen ++ [id]) rest

/-- The modules that feed a module, once for every patch, in patch order. -/
def feeders (graph : Graph U) (id : ModuleId) : List ModuleId :=
  (graph.patches.filter (·.target.module = id)).map (·.source.module)

/-- How many patches start at a module that was not seen. -/
def unseenSources (graph : Graph U) (seen : List ModuleId) : Nat :=
  graph.patches.countP (·.source.module ∉ seen)

/-- Seeing a module that patches start from leaves fewer of them. -/
private theorem countP_append_lt
    {patches : List Patch}
    {seen : List ModuleId}
    {id : ModuleId}
    (starts : ∃ patch ∈ patches, patch.source.module = id)
    (new : id ∉ seen) :
    patches.countP (·.source.module ∉ seen ++ [id]) + 1
      ≤ patches.countP (·.source.module ∉ seen) := by
  induction patches with
  | nil => simp at starts
  | cons patch rest inductionHypothesis =>
      have fewer :
          rest.countP (·.source.module ∉ seen ++ [id])
            ≤ rest.countP (·.source.module ∉ seen) := by
        apply List.countP_mono_left
        intro other _ notSeen
        simp only [List.mem_append, List.mem_singleton, not_or, decide_eq_true_eq]
          at notSeen ⊢
        exact notSeen.1
      by_cases here : patch.source.module = id
      · simp only [List.countP_cons, here, List.mem_append, List.mem_singleton, or_true,
          not_true_eq_false, decide_false, new, not_false_eq_true, decide_true]
        simp
        simpa using fewer
      · have inRest : ∃ patch ∈ rest, patch.source.module = id := by
          obtain ⟨found, member, source⟩ := starts
          rcases List.mem_cons.mp member with isFirst | later
          · exact absurd (isFirst ▸ source) here
          · exact ⟨found, later, source⟩
        have step := inductionHypothesis inRest
        by_cases known : patch.source.module ∈ seen
        · simpa [List.countP_cons, known] using step
        · have : patch.source.module ∉ seen ++ [id] := by simp [known, here]
          simp only [List.countP_cons, this, known, not_false_eq_true, decide_true, if_true]
          omega

/-- Every newly seen module leaves at least one patch fewer to follow. -/
theorem unseenSources_unseen
    (graph : Graph U)
    (candidates seen : List ModuleId)
    (start : ∀ id ∈ candidates, ∃ patch ∈ graph.patches, patch.source.module = id) :
    graph.unseenSources (seen ++ unseen seen candidates) + (unseen seen candidates).length
      ≤ graph.unseenSources seen := by
  induction candidates generalizing seen with
  | nil => simp [unseen]
  | cons id rest inductionHypothesis =>
      have restStart : ∀ id ∈ rest, ∃ patch ∈ graph.patches, patch.source.module = id :=
        fun other member => start other (List.mem_cons_of_mem _ member)
      unfold unseen
      split
      next => exact inductionHypothesis seen restStart
      next new =>
        have step := inductionHypothesis (seen ++ [id]) restStart
        have less :
            graph.unseenSources (seen ++ [id]) + 1 ≤ graph.unseenSources seen :=
          countP_append_lt (start id List.mem_cons_self) new
        rw [List.append_assoc, List.singleton_append] at step
        simp only [List.length_cons]
        omega

/-- Modules that feed a module have patches that start from them. -/
theorem feeders_start
    (graph : Graph U)
    (id : ModuleId) :
    ∀ feeder ∈ graph.feeders id, ∃ patch ∈ graph.patches, patch.source.module = feeder := by
  intro feeder member
  simp only [feeders, List.mem_map, List.mem_filter] at member
  obtain ⟨patch, ⟨present, _⟩, source⟩ := member
  exact ⟨patch, present, source⟩

/-- Visit the pending modules and all that feed them, in the order they are found. -/
def walk (graph : Graph U) (visited : List ModuleId) : List ModuleId → List ModuleId
  | [] => visited
  | current :: pending =>
      let seen := visited ++ current :: pending
      graph.walk (visited ++ [current]) (pending ++ unseen seen (graph.feeders current))
termination_by pending => graph.unseenSources (visited ++ pending) + pending.length
decreasing_by
  have step :=
    graph.unseenSources_unseen (graph.feeders current) (visited ++ current :: pending)
      (graph.feeders_start current)
  simp only [List.append_assoc, List.length_append, List.length_cons, List.cons_append,
    List.nil_append] at step ⊢
  omega

/-- The sinks that are there and all modules they depend on, nearest first. -/
def discover (graph : Graph U) (sinks : List ModuleId) : List ModuleId :=
  graph.walk [] (unseen [] (sinks.filter fun sink => (graph.module? sink).isSome))

end SynthGraph.Graph
