import SynthGraph.Graph.Discovery

namespace SynthGraph

/-!
# Compile order

Discovered modules are compiled producers first.  Every module waits for the
patches that lead to it; of the modules that wait for nothing the one discovered
last goes next, and the patches that leave it stop being waited for.  Modules
that depend on a cycle never stop waiting and come last, in reverse order of
discovery.

Ranks are positions in discovery order.
-/

/-- For every rank the patches still waited for, and the ranks that may go next. -/
structure Countdown where
  waiting : List Nat
  ready : List Nat
  deriving Repr, DecidableEq

namespace Countdown

/-- All patches waited for, over all ranks. -/
def total : List Nat → Nat
  | [] => 0
  | count :: counts => count + total counts

/-- All that is still to be done: modules that may go, and patches waited for. -/
def size (countdown : Countdown) : Nat :=
  total countdown.waiting + countdown.ready.length

/-- A rank waits for one patch fewer, and may go once it waits for none. -/
def release (countdown : Countdown) (rank : Nat) : Countdown :=
  match countdown.waiting[rank]? with
  | some (rest + 1) =>
      ⟨countdown.waiting.set rank rest,
        if rest = 0 then countdown.ready ++ [rank] else countdown.ready⟩
  | _ => countdown

/-- Several patches stop being waited for, each given by the rank it leads to. -/
def releaseAll (countdown : Countdown) (ranks : List Nat) : Countdown :=
  ranks.foldl release countdown

/-- Waiting for one patch fewer lowers the total by one. -/
private theorem total_set
    {counts : List Nat}
    {rank rest : Nat}
    (found : counts[rank]? = some (rest + 1)) :
    total (counts.set rank rest) + 1 = total counts := by
  induction counts generalizing rank with
  | nil => simp at found
  | cons count counts inductionHypothesis =>
      cases rank with
      | zero =>
          simp only [List.getElem?_cons_zero, Option.some.injEq] at found
          simp only [List.set_cons_zero, total, found]
          omega
      | succ rank =>
          simp only [List.getElem?_cons_succ] at found
          have step := inductionHypothesis found
          simp only [List.set_cons_succ, total]
          omega

/-- Releasing a rank adds no work. -/
theorem size_release (countdown : Countdown) (rank : Nat) :
    (countdown.release rank).size ≤ countdown.size := by
  unfold release
  split
  next rest found =>
    have step := total_set found
    unfold size
    split
    · simp only [List.length_append, List.length_singleton]
      omega
    · simp only
      omega
  next => exact Nat.le_refl _

/-- Releasing several ranks adds no work. -/
theorem size_releaseAll (countdown : Countdown) (ranks : List Nat) :
    (countdown.releaseAll ranks).size ≤ countdown.size := by
  induction ranks generalizing countdown with
  | nil => exact Nat.le_refl _
  | cons rank ranks inductionHypothesis =>
      exact Nat.le_trans (inductionHypothesis (countdown.release rank))
        (countdown.size_release rank)

/-- Take the greatest rank that may go. -/
def next? (countdown : Countdown) : Option (Nat × Countdown) :=
  match countdown.ready.max? with
  | some rank => some (rank, { countdown with ready := countdown.ready.erase rank })
  | none => none

/-- Taking a rank leaves less work. -/
theorem size_next?
    {countdown rest : Countdown}
    {rank : Nat}
    (taken : countdown.next? = some (rank, rest)) :
    rest.size < countdown.size := by
  unfold next? at taken
  split at taken
  next greatest found =>
    simp only [Option.some.injEq, Prod.mk.injEq] at taken
    obtain ⟨rfl, rfl⟩ := taken
    have member : greatest ∈ countdown.ready := List.max?_mem found
    have length := List.length_erase_of_mem member
    have positive := List.length_pos_of_mem member
    unfold size
    simp only [length]
    omega
  next => simp at taken

/-- The order in which ranks go, when each releases the ranks it leads to. -/
def run (leadsTo : Nat → List Nat) (countdown : Countdown) : List Nat :=
  match _taken : countdown.next? with
  | none => []
  | some (rank, rest) => rank :: run leadsTo (rest.releaseAll (leadsTo rank))
termination_by countdown.size
decreasing_by
  exact Nat.lt_of_le_of_lt (size_releaseAll _ _) (size_next? _taken)

end Countdown

namespace Graph

variable {U : Type}

/-- The ranks that the patches of a module lead to, once for every patch. -/
def targetRanks
    (graph : Graph U)
    (discovery : List ModuleId)
    (id : ModuleId) :
    List Nat :=
  (graph.patches.filter (·.source.module = id)).filterMap fun patch =>
    discovery.idxOf? patch.target.module

/-- How many patches lead to a module from modules that were discovered. -/
def waitingFor (graph : Graph U) (discovery : List ModuleId) (id : ModuleId) : Nat :=
  graph.patches.countP fun patch =>
    patch.target.module = id && patch.source.module ∈ discovery

/-- Before anything is compiled, modules without producers may go. -/
def countdown (graph : Graph U) (discovery : List ModuleId) : Countdown :=
  let waiting := discovery.map (graph.waitingFor discovery)
  ⟨waiting, (List.range waiting.length).filter fun rank => waiting[rank]? = some 0⟩

/-- The ranks of the modules that come after all their producers. -/
def orderedRanks (graph : Graph U) (discovery : List ModuleId) : List Nat :=
  Countdown.run
    (fun rank =>
      match discovery[rank]? with
      | some id => graph.targetRanks discovery id
      | none => [])
    (graph.countdown discovery)

/-- Discovered modules in the order in which they are compiled. -/
def emissionOrder (graph : Graph U) (discovery : List ModuleId) : List ModuleId :=
  let ordered := graph.orderedRanks discovery
  let remaining := (List.range discovery.length).reverse.filter (· ∉ ordered)
  (ordered ++ remaining).filterMap (discovery[·]?)

end Graph

/-- The modules that some sinks depend on, as discovered and as compiled. -/
structure Schedule where
  discovery : List ModuleId
  emission : List ModuleId
  deriving Repr, DecidableEq

namespace Schedule

/-- The position of a module in discovery order. -/
def rank? (schedule : Schedule) (id : ModuleId) : Option Nat :=
  schedule.discovery.idxOf? id

end Schedule

/-- The schedule of a graph for some sinks. -/
def Graph.schedule {U : Type} (graph : Graph U) (sinks : List ModuleId) : Schedule :=
  let discovery := graph.discover sinks
  ⟨discovery, graph.emissionOrder discovery⟩

end SynthGraph
