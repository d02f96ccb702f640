import ArmBoard.Fault

/-!
# Actions

An action works on a state and either returns a value or stops with a fault.
In both cases the state it reached is kept: what was done before a fault stays
done. `perform_bind` is the law by which sequences of actions are taken apart.
-/
namespace ArmBoard

/-- A computation on a state that may stop with a fault and keeps the state either way. -/
abbrev Action (σ α : Type) : Type := ExceptT Fault (StateM σ) α

namespace Action

variable {σ τ α β : Type}

/-- Performs an action: its outcome and the state it reached. -/
def perform (action : Action σ α) (state : σ) : Except Fault α × σ := action state

def ofFunction (effect : σ → Except Fault α × σ) : Action σ α := effect

/-- Stops with a fault and changes nothing. -/
def fail (fault : Fault) : Action σ α := fun state => (.error fault, state)

/-- Returns what a partial question about the state answers. -/
def ask (question : σ → Except Fault α) : Action σ α := fun state => (question state, state)

/-- Changes the state; it cannot fail. -/
def change (update : σ → σ) : Action σ Unit := fun state => (.ok (), update state)

/-- Changes the state, or stops with a fault and changes nothing. -/
def changeOr (update : σ → Except Fault σ) : Action σ Unit := fun state =>
  match update state with
  | .ok next => (.ok (), next)
  | .error fault => (.error fault, state)

def onPart (part : τ → σ) (replace : τ → σ → τ) (action : Action σ α) : Action τ α := fun state =>
  let (outcome, next) := action.perform (part state)
  (outcome, replace state next)

/-- Rewords the fault with which an action stops. -/
def mapFault (f : Fault → Fault) (action : Action σ α) : Action σ α := fun state =>
  match action.perform state with
  | (.ok value, next) => (.ok value, next)
  | (.error fault, next) => (.error (f fault), next)

theorem perform_pure (value : α) (state : σ) :
    (pure value : Action σ α).perform state = (.ok value, state) := rfl

theorem perform_fail (fault : Fault) (state : σ) :
    (fail fault : Action σ α).perform state = (.error fault, state) := rfl

theorem perform_ask (question : σ → Except Fault α) (state : σ) :
    (ask question).perform state = (question state, state) := rfl

theorem perform_change (update : σ → σ) (state : σ) :
    (change update).perform state = (.ok (), update state) := rfl

theorem perform_ofFunction (effect : σ → Except Fault α × σ) (state : σ) :
    (ofFunction effect).perform state = effect state := rfl

theorem perform_onPart (part : τ → σ) (replace : τ → σ → τ) (action : Action σ α) (state : τ) :
    (onPart part replace action).perform state =
      ((action.perform (part state)).1, replace state (action.perform (part state)).2) := rfl

theorem perform_mapFault (f : Fault → Fault) (action : Action σ α) (state : σ) :
    (mapFault f action).perform state =
      match action.perform state with
      | (.ok value, next) => (.ok value, next)
      | (.error fault, next) => (.error (f fault), next) := rfl

theorem perform_bind (action : Action σ α) (next : α → Action σ β) (state : σ) :
    (action >>= next).perform state =
      match action.perform state with
      | (.ok value, reached) => (next value).perform reached
      | (.error fault, reached) => (.error fault, reached) := by
  change (match action state with
    | (outcome, reached) => (ExceptT.bindCont next outcome) reached) = _
  rcases equation : action state with ⟨_ | _, _⟩ <;> simp only [perform, equation] <;> rfl

end Action

end ArmBoard
