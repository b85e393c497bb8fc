import ComponentTree.Fault
import ComponentTree.Source
import ComponentTree.Value.Sharing

/-!
# The steps of a conversion

A conversion calls its collaborators in a certain order. A *run* lists the steps that were taken, up
to and including the one that failed, if one did. So what was called, and with which arguments, is
part of the outcome.

A props strategy may change a map that it found in a slot or an attribute, and what comes later then
sees the changed map. The *course* of a conversion from some point on is therefore a function of the
writes before that point, and its run tells the writes that it adds.
-/

namespace ComponentTree

/-- What a props strategy is told about the element whose props are built. -/
structure PropsContext (ν : Type) where
  /-- The tag in lower case. -/
  tag : String
  /-- What is registered for the tag, null if nothing is. -/
  component : Value
  element : ν

/-- A call of a props strategy. -/
structure PropsCall (ν : Type) where
  attributes : List (String × Value)
  slots : Entries
  context : PropsContext ν

/-- A step of a conversion, with the node that it is taken for. -/
inductive Step (ν : Type) where
  /-- The depth of a node is checked. -/
  | enter (node : ν)
  /-- A tag is looked up among the components: that of the node, or that of its parent. -/
  | lookup (node : ν) (tag : String)
  /-- The result of a child is put into a slot of the element around it. -/
  | route (owner child : ν) (slot : Value)
  /-- The props strategy is called. -/
  | props (call : PropsCall ν)
  /-- The descriptor of an element or fragment is built. -/
  | build (node : ν) (type props : Value) (children : List Value)

/-- An outcome together with the steps that led to it. -/
structure Run (ν α : Type) where
  outcome : Except Fault α
  steps : List (Step ν)
  /-- The writes to shared maps in these steps, in order. -/
  writes : List Write

/-- The outcome of a run after its writes. -/
def Run.settled {ν : Type} (run : Run ν Value) : Except Fault Value :=
  run.outcome.map (·.afterAll run.writes)

/-- A call that finds the shared maps as earlier writes have left them. -/
def PropsCall.afterAll {ν : Type} (earlier : List Write) (call : PropsCall ν) : PropsCall ν where
  attributes := call.attributes.map fun (name, value) => (name, value.afterAll earlier)
  slots := Value.entriesAfterAll earlier call.slots
  context := call.context

/-- What a conversion does from some point on, given the writes before that point. -/
def Course (ν α : Type) : Type := List Write → Run ν α

namespace Course

variable {ν α β : Type}

/-- An outcome without a step. -/
def done (a : α) : Course ν α := fun _ => ⟨.ok a, [], []⟩

/-- An outcome that is reached without a step. -/
def ofExcept (outcome : Except Fault α) : Course ν α := fun _ => ⟨outcome, [], []⟩

/-- A step with its outcome. -/
def step (s : Step ν) (outcome : Except Fault α) : Course ν α := fun _ => ⟨outcome, [s], []⟩

/-- A value as the writes so far have left it. -/
def current (value : Value) : Course ν Value := fun earlier =>
  ⟨.ok (value.afterAll earlier), [], []⟩

/-- One course after the other. After a failure nothing follows. -/
def andThen (first : Course ν α) (next : α → Course ν β) : Course ν β := fun earlier =>
  let run := first earlier
  match run.outcome with
  | .error fault => ⟨.error fault, run.steps, run.writes⟩
  | .ok a =>
    let rest := next a (earlier ++ run.writes)
    ⟨rest.outcome, run.steps ++ rest.steps, run.writes ++ rest.writes⟩

instance : Monad (Course ν) where
  pure := done
  bind := andThen

/-- A course for each item, in order. -/
def forEach (f : α → Course ν β) : List α → Course ν (List β)
  | [] => done []
  | a :: rest => do
    let b ← f a
    let bs ← forEach f rest
    return b :: bs

end Course

end ComponentTree
