import SynthGraph.Proofs.GraphFile.RoundTrip
import SynthGraph.Proofs.Session.Delivery

namespace SynthGraph

/-!
# Work on sessions

Definitions are assigned to a session, and channels that are found by number get
sequences and instruments and have the graphs of their sequences edited.  Every
action reaches the first channel with a number only: another channel with the
number keeps what it has, but for definitions that were routed to it
(`Session.channels_run`).
-/

namespace Channel

/-- What may be done with a channel once it is found. -/
inductive Work where
  | addSequence
  | edit (index : Nat) (change : Graph SequenceUnit → Graph SequenceUnit)
  | equip (instrument : Instrument)

/-- Whether graphs are edited with units of the catalog only. -/
def Work.Drawn : Work → Prop
  | .edit _ change => ∀ graph : Graph SequenceUnit, graph.Edit (change graph)
  | _ => True

/-- Change the graph of one of the sequences. -/
def editSequence
    (channel : Channel)
    (index : Nat)
    (change : Graph SequenceUnit → Graph SequenceUnit) :
    Channel :=
  { channel with
    sequences := channel.sequences.modify index fun sequence =>
      { sequence with graph := change sequence.graph } }

/-- The channel when something was done with it. -/
def apply (channel : Channel) : Work → Channel
  | .addSequence => channel.addSequence
  | .edit index change => channel.editSequence index change
  | .equip instrument => { channel with instrument := some instrument }

@[simp]
theorem number_apply (channel : Channel) (work : Work) :
    (channel.apply work).number = channel.number := by
  cases work <;> rfl

@[simp]
theorem settings_apply (channel : Channel) (work : Work) :
    (channel.apply work).settings = channel.settings := by
  cases work <;> rfl

end Channel

namespace Session

/-- What may be done with a session. -/
inductive Action where
  | assign (definitions : List Document)
  | visit (number : UInt8) (work : Channel.Work)

/-- Whether graphs are edited with units of the catalog only. -/
def Action.Drawn : Action → Prop
  | .assign _ => True
  | .visit _ work => work.Drawn

/-- The session after an action. -/
def perform (session : Session) : Action → Session
  | .assign definitions => (session.assign definitions).2
  | .visit number work => session.updateChannel number (·.apply work)

/-- The session after actions, one after the other. -/
def run (session : Session) (actions : List Action) : Session :=
  actions.foldl perform session

end Session

namespace Channel

open Session Routing

/-- The channel after an action, if no channel before it has its number. -/
def reached (channel : Channel) : Action → Channel
  | .assign definitions =>
      { channel with
        definitions :=
          ((leavesAll definitions).filter (·.channel? = some channel.number.toNat)).map
            Leaf.document }
  | .visit number work => if number = channel.number then channel.apply work else channel

/-- The channel after an action, if a channel before it has its number. -/
def passed (channel : Channel) : Action → Channel
  | .assign _ => { channel with definitions := [] }
  | .visit _ _ => channel

section Fields

variable (channel : Channel) (action : Action)

@[simp]
theorem number_reached : (channel.reached action).number = channel.number := by
  cases action with
  | assign definitions => rfl
  | visit number work =>
      rw [reached]
      split
      · exact channel.number_apply work
      · rfl

@[simp]
theorem settings_reached : (channel.reached action).settings = channel.settings := by
  cases action with
  | assign definitions => rfl
  | visit number work =>
      rw [reached]
      split
      · exact channel.settings_apply work
      · rfl

@[simp]
theorem number_passed : (channel.passed action).number = channel.number := by
  cases action <;> rfl

/-- Without definitions nothing is lost. -/
theorem passed_of_noDefinitions
    {channel : Channel}
    (noDefinitions : channel.definitions = []) :
    channel.passed action = channel := by
  cases action with
  | assign definitions => rw [passed, ← noDefinitions]
  | visit number work => rfl

/-- A channel that holds no definitions is left as it is. -/
theorem foldl_passed
    (noDefinitions : channel.definitions = [])
    (actions : List Action) :
    actions.foldl passed channel = channel := by
  induction actions with
  | nil => rfl
  | cons action rest inductionHypothesis =>
      rw [List.foldl_cons, passed_of_noDefinitions action noDefinitions, inductionHypothesis]

end Fields

/-- The channel after actions, if no channel before it has its number. -/
def after (channel : Channel) (actions : List Action) : Channel :=
  actions.foldl reached channel

/-- Whatever an action keeps, actions keep. -/
theorem after_induction
    {motive : Channel → Prop}
    {channel : Channel}
    {actions : List Action}
    (start : motive channel)
    (step : ∀ action ∈ actions, ∀ channel, motive channel → motive (channel.reached action)) :
    motive (channel.after actions) := by
  induction actions generalizing channel with
  | nil => exact start
  | cons action rest inductionHypothesis =>
      rw [List.forall_mem_cons] at step
      exact inductionHypothesis (step.1 channel start) step.2

theorem number_after (channel : Channel) (actions : List Action) :
    (channel.after actions).number = channel.number :=
  after_induction
    (motive := fun other => other.number = channel.number)
    rfl fun action _ other same => (other.number_reached action).trans same

theorem settings_after (channel : Channel) (actions : List Action) :
    (channel.after actions).settings = channel.settings :=
  after_induction
    (motive := fun other => other.settings = channel.settings)
    rfl fun action _ other same => (other.settings_reached action).trans same

/-- A channel has no instrument as long as it is given none. -/
theorem instrument_after
    {channel : Channel}
    {actions : List Action}
    (isNone : channel.instrument = none)
    (unequipped : ∀ instrument, .visit channel.number (.equip instrument) ∉ actions) :
    (channel.after actions).instrument = none := by
  refine (after_induction
    (motive := fun other => other.number = channel.number ∧ other.instrument = none)
    ⟨rfl, isNone⟩ ?_).2
  rintro action member other ⟨sameNumber, isNone⟩
  refine ⟨(other.number_reached action).trans sameNumber, ?_⟩
  cases action with
  | assign definitions => exact isNone
  | visit number work =>
      rw [reached]
      split
      · next isFor =>
        cases work with
        | addSequence | edit => exact isNone
        | equip instrument =>
            rw [isFor, sameNumber] at member
            exact absurd member (unequipped instrument)
      · exact isNone

/-- All sequences play on the channel and can come about. -/
def Wired (channel : Channel) : Prop :=
  ∀ sequence ∈ channel.sequences, sequence.channel = channel.number ∧ sequence.Reachable

theorem Wired.apply
    {channel : Channel}
    {work : Work}
    (wired : channel.Wired)
    (drawn : work.Drawn) :
    (channel.apply work).Wired := by
  cases work with
  | addSequence =>
      intro sequence member
      rcases List.mem_append.mp member with present | isNew
      · exact wired sequence present
      · obtain rfl := List.mem_singleton.mp isNew
        exact ⟨rfl, .new _⟩
  | edit index change =>
      intro sequence member
      obtain ⟨position, atPosition⟩ := List.mem_iff_getElem?.mp member
      simp only [Channel.apply, editSequence, List.getElem?_modify] at atPosition
      obtain ⟨old, isOld, isChanged⟩ := Option.map_eq_some_iff.mp atPosition
      obtain ⟨plays, reachable⟩ := wired old (List.mem_of_getElem? isOld)
      split at isChanged
      · subst isChanged
        exact ⟨plays, .edit reachable (drawn _)⟩
      · subst isChanged
        exact ⟨plays, reachable⟩
  | equip instrument => exact wired

/-- Sequences stay on their channel. -/
theorem Wired.after
    {channel : Channel}
    {actions : List Action}
    (wired : channel.Wired)
    (drawn : ∀ action ∈ actions, action.Drawn) :
    (channel.after actions).Wired := by
  refine after_induction wired fun action member other wired => ?_
  cases action with
  | assign definitions => exact wired
  | visit number work =>
      rw [reached]
      split
      · exact wired.apply (drawn _ member)
      · exact wired

end Channel

namespace Session

open Routing

section Running

/-- Only the first channel with the number is changed. -/
theorem updateFirst_eq_mapIdx
    (number : UInt8)
    (update : Channel → Channel)
    (channels : List Channel) :
    updateFirst number update channels =
      channels.mapIdx fun index channel =>
        if channel.number ∈ (channels.take index).map Channel.number then
          channel
        else if number = channel.number then
          update channel
        else
          channel := by
  induction channels with
  | nil => rfl
  | cons channel rest inductionHypothesis =>
      rw [updateFirst, List.mapIdx_cons]
      by_cases isFirst : channel.number = number
      · subst isFirst
        have others :
            (rest.mapIdx fun index other =>
              if other.number ∈ ((channel :: rest).take (index + 1)).map Channel.number then
                other
              else if channel.number = other.number then
                update other
              else
                other) = rest := by
          refine List.mapIdx_eq_iff.mpr fun index => ?_
          cases rest[index]? with
          | none => rfl
          | some other =>
              by_cases same : channel.number = other.number
              · simp [same]
              · simp [same]
        rw [others]
        simp
      · rw [if_neg isFirst, inductionHypothesis]
        have notHere : ¬ number = channel.number := Ne.symm isFirst
        congr 1
        · simp [notHere]
        · congr 1
          funext index other
          by_cases same : number = other.number
          · have notHead : ¬ other.number = channel.number := same ▸ notHere
            simp [notHead]
          · simp [same]

/-- An action reaches the first channel with a number and passes by all others. -/
theorem channels_perform
    (session : Session)
    (action : Action) :
    (session.perform action).channels =
      session.channels.mapIdx fun index channel =>
        if channel.number ∈ (session.channels.take index).map Channel.number then
          channel.passed action
        else
          channel.reached action := by
  cases action with
  | assign definitions =>
      have routing :
          session.routing definitions =
            ofLeaves (session.channels.map Channel.number) (leavesAll definitions) :=
        routeAll_eq_ofLeaves _ definitions
      simp only [perform, assign, routing, foldl_deliver_leaves]
      congr 1
      funext index channel
      split <;> rfl
  | visit number work => exact updateFirst_eq_mapIdx number _ _

/-- What is the same of every channel is the same of all, in order. -/
theorem map_mapIdx_eq_map
    {α : Type}
    {told : Channel → α}
    {change : Nat → Channel → Channel}
    (same : ∀ index channel, told (change index channel) = told channel)
    (channels : List Channel) :
    (channels.mapIdx change).map told = channels.map told := by
  apply List.ext_getElem?
  intro index
  rw [List.getElem?_map, List.getElem?_mapIdx, List.getElem?_map, Option.map_map]
  exact congrArg (channels[index]?.map ·) (funext (same index))

theorem numbers_perform
    (session : Session)
    (action : Action) :
    (session.perform action).channels.map Channel.number =
      session.channels.map Channel.number := by
  rw [channels_perform]
  refine map_mapIdx_eq_map (fun index channel => ?_) session.channels
  split
  · exact channel.number_passed action
  · exact channel.number_reached action

/-- So do actions one after the other. -/
theorem channels_run
    (session : Session)
    (actions : List Action) :
    (session.run actions).channels =
      session.channels.mapIdx fun index channel =>
        if channel.number ∈ (session.channels.take index).map Channel.number then
          actions.foldl Channel.passed channel
        else
          channel.after actions := by
  induction actions generalizing session with
  | nil =>
      refine (List.mapIdx_eq_iff.mpr fun index => ?_).symm
      simp [run, Channel.after]
  | cons action rest inductionHypothesis =>
      have sameNumbers (index : Nat) :
          ((session.perform action).channels.take index).map Channel.number =
            (session.channels.take index).map Channel.number := by
        rw [List.map_take, numbers_perform, List.map_take]
      rw [run, List.foldl_cons, ← run, inductionHypothesis]
      simp only [sameNumbers]
      rw [channels_perform, List.mapIdx_mapIdx]
      congr 1
      funext index channel
      rw [Function.comp_apply]
      by_cases isLater : channel.number ∈ (session.channels.take index).map Channel.number
      · simp only [if_pos isLater, channel.number_passed action]
        rfl
      · simp only [if_neg isLater, channel.number_reached action]
        rfl

end Running

end Session

end SynthGraph
