/-
# Shared types

Identifiers, enumerations and records of `torvyn-types` that the reactor and the
resource manager exchange.
-/
import Mathlib

namespace Torvyn

/-! ## Identifiers -/

/-- `ComponentInstanceId`, for which the source uses the alias `ComponentId`. -/
structure ComponentId where
  id : ℕ
  deriving DecidableEq, Repr

/-- A flow. -/
structure FlowId where
  id : ℕ
  deriving DecidableEq, Repr

/-- A stream of a flow: the index of its connection. -/
structure StreamId where
  id : ℕ
  deriving DecidableEq, Repr

/-- A slot of the resource table together with the generation of its entry. -/
structure ResourceId where
  index : ℕ
  generation : ℕ
  deriving DecidableEq, Repr

/-- A typed resource id that names a buffer. -/
structure BufferHandle where
  resourceId : ResourceId
  deriving DecidableEq, Repr

instance : ToString ComponentId := ⟨fun c => s!"component-{c.id}"⟩

instance : ToString FlowId := ⟨fun f => s!"flow-{f.id}"⟩

/-! ## Enumerations -/

/-- The role of a component in a pipeline. -/
inductive ComponentRole where
  | source
  | processor
  | sink
  | filter
  | router
  deriving DecidableEq, Repr

/-- What a full queue does with one more element. -/
inductive BackpressurePolicy where
  | blockProducer
  | dropOldest
  | dropNewest
  | error
  deriving DecidableEq, Repr

/-- A flow-control signal, from a sink's `push` or to a source. -/
inductive BackpressureSignal where
  | ready
  | pause
  deriving DecidableEq, Repr

/-- The error a component returns. -/
inductive ProcessError where
  | invalidInput (detail : String)
  | unavailable (detail : String)
  | internal (detail : String)
  | deadlineExceeded
  | fatal (detail : String)
  deriving DecidableEq, Repr

/-- The category an error is recorded under. -/
inductive ProcessErrorKind where
  | invalidInput
  | unavailable
  | internal
  | deadlineExceeded
  | fatal
  deriving DecidableEq, Repr

/-- `From<&ProcessError> for ProcessErrorKind`. -/
def ProcessError.kind : ProcessError → ProcessErrorKind
  | .invalidInput _ => .invalidInput
  | .unavailable _ => .unavailable
  | .internal _ => .internal
  | .deadlineExceeded => .deadlineExceeded
  | .fatal _ => .fatal

/-- The outcome an invocation is recorded with. -/
inductive InvocationStatus where
  | ok
  | error (kind : ProcessErrorKind)
  | timeout
  | cancelled
  deriving DecidableEq, Repr

/-! ## Lifecycle of a flow -/

/-- The states of a flow. -/
inductive FlowState where
  | created
  | validated
  | instantiated
  | running
  | draining
  | completed
  | cancelled
  | failed
  deriving DecidableEq, Repr

namespace FlowState

/-- Whether the flow has ended. -/
def isTerminal : FlowState → Bool
  | .completed | .cancelled | .failed => true
  | _ => false

/-- `can_transition_to`: the legal changes of state. -/
def canTransitionTo : FlowState → FlowState → Bool
  | .created, .validated | .created, .failed => true
  | .validated, .instantiated | .validated, .failed => true
  | .instantiated, .running => true
  | .running, .draining => true
  | .draining, .completed | .draining, .cancelled | .draining, .failed => true
  | _, _ => false

end FlowState

/-! ## Elements -/

/-- Metadata of a stream element. -/
structure ElementMeta where
  sequence : ℕ
  timestampNs : ℕ
  contentType : String
  deriving DecidableEq, Repr

/-- The element handed to a component. -/
structure StreamElement where
  metadata : ElementMeta
  payload : BufferHandle
  deriving DecidableEq, Repr

/-- The element a component returns. -/
structure OutputElement where
  metadata : ElementMeta
  payload : BufferHandle
  deriving DecidableEq, Repr

/-- The result of a processor invocation. -/
inductive ProcessResult where
  | output (element : OutputElement)
  | filtered
  | multiple (elements : List OutputElement)
  deriving DecidableEq, Repr

end Torvyn
