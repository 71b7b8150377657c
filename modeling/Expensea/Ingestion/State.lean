import Expensea.Store

namespace Expensea.Ingestion

/-!
# Raw-event states

`app/ingestion/state.py`: the declared transitions of a raw event.
-/

/-- `_ALLOWED_TRANSITIONS` -/
def allowedTransitions : RawEventState → List RawEventState
  | .received => [.normalized, .failed]
  | .normalized => [.processed, .needsReview, .failed]
  | .failed => [.normalized, .failed]
  | .needsReview => [.processed]
  | .processed => []

/-- `require_state_transition` -/
def requireStateTransition (current target : RawEventState) : DbTx Unit :=
  require ((allowedTransitions current).contains target)
    (.ingestionConflict "INVALID_INGESTION_STATE_TRANSITION"
      ("Raw event cannot transition from " ++ current.value ++ " to " ++ target.value ++ "."))

/-- `_TERMINAL_STATES` -/
def isTerminal : RawEventState → Bool
  | .processed => true
  | .needsReview => true
  | _ => false

end Expensea.Ingestion
