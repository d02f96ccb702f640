import ArmBoard.Execution.Execute

/-!
# Conduct of actions

A conduct says which faults an action may stop with and what it leaves alone
in the state. Because what is left alone twice in a row is left alone, the
conduct of a sequence follows from that of its parts. An action may be excused:
it then has to leave things alone only when it stops with a fault, which
suits the last step of a sequence.
-/
namespace ArmBoard

/-- The faults that are admitted, and a reflexive and transitive relation between states. -/
structure Conduct (σ : Type) where
  admits : Fault → Prop
  keeps : σ → σ → Prop
  refl : ∀ state, keeps state state
  trans : ∀ {first second third}, keeps first second → keeps second third → keeps first third

namespace Action

variable {σ τ α β : Type} {conduct : Conduct σ} {excused : Prop}

/-- An action stops only with admitted faults and keeps the relation, if it is not excused. -/
structure Follows (conduct : Conduct σ) (excused : Prop) (action : Action σ α) : Prop where
  faulted : ∀ {state reached : σ} {fault : Fault},
    action.perform state = (.error fault, reached) →
      conduct.admits fault ∧ conduct.keeps state reached
  returned : ∀ {state reached : σ} {value : α},
    action.perform state = (.ok value, reached) → excused ∨ conduct.keeps state reached

namespace Follows

theorem weaken {other : Prop} {action : Action σ α} (follows : action.Follows conduct excused)
    (weaker : excused → other) : action.Follows conduct other where
  faulted := follows.faulted
  returned performed := (follows.returned performed).imp weaker id

theorem excuse {action : Action σ α} (follows : action.Follows conduct False) :
    action.Follows conduct excused := follows.weaken False.elim

/-- Where every fault is admitted, only the state that is reached matters. -/
theorem of_keeps {action : Action σ α} (admitted : ∀ fault, conduct.admits fault)
    (kept : ∀ state, conduct.keeps state (action.perform state).2) :
    action.Follows conduct excused where
  faulted {state reached fault} performed := by
    have keeps := kept state
    rw [performed] at keeps
    exact ⟨admitted fault, keeps⟩
  returned {state reached value} performed := by
    have keeps := kept state
    rw [performed] at keeps
    exact Or.inr keeps

/-- Whatever the outcome is, the state that is reached keeps the relation. -/
theorem keeps {action : Action σ α} (follows : action.Follows conduct False) (state : σ) :
    conduct.keeps state (action.perform state).2 := by
  rcases performed : action.perform state with ⟨fault | value, reached⟩
  · exact (follows.faulted performed).2
  · exact (follows.returned performed).resolve_left id

theorem pure (value : α) : (Pure.pure value : Action σ α).Follows conduct excused where
  faulted performed := by cases performed
  returned performed := by
    cases performed
    exact Or.inr (conduct.refl _)

theorem fail {fault : Fault} (admitted : conduct.admits fault) :
    (Action.fail fault : Action σ α).Follows conduct excused where
  faulted performed := by
    cases performed
    exact ⟨admitted, conduct.refl _⟩
  returned performed := by cases performed

theorem ask {question : σ → Except Fault α}
    (admitted : ∀ {state fault}, question state = .error fault → conduct.admits fault) :
    (Action.ask question).Follows conduct excused where
  faulted performed := by
    rw [perform_ask, Prod.mk.injEq] at performed
    obtain ⟨asked, rfl⟩ := performed
    exact ⟨admitted asked, conduct.refl _⟩
  returned performed := by
    rw [perform_ask, Prod.mk.injEq] at performed
    obtain ⟨_, rfl⟩ := performed
    exact Or.inr (conduct.refl _)

theorem change {update : σ → σ} (kept : excused ∨ ∀ state, conduct.keeps state (update state)) :
    (Action.change update).Follows conduct excused where
  faulted performed := by cases performed
  returned performed := by
    cases performed
    exact kept.imp id fun kept => kept _

theorem changeOr {update : σ → Except Fault σ}
    (admitted : ∀ {state fault}, update state = .error fault → conduct.admits fault)
    (kept : excused ∨ ∀ {state next}, update state = .ok next → conduct.keeps state next) :
    (Action.changeOr update).Follows conduct excused where
  faulted {state reached fault} performed := by
    simp only [perform, Action.changeOr] at performed
    split at performed
    · cases performed
    · next failed =>
      cases performed
      exact ⟨admitted failed, conduct.refl _⟩
  returned {state reached value} performed := by
    simp only [perform, Action.changeOr] at performed
    split at performed
    · next updated =>
      cases performed
      exact kept.imp id fun kept => kept updated
    · cases performed

theorem ofFunction {effect : σ → Except Fault α × σ}
    (faulted : ∀ {state reached fault}, effect state = (.error fault, reached) →
      conduct.admits fault ∧ conduct.keeps state reached)
    (returned : ∀ {state reached value}, effect state = (.ok value, reached) →
      excused ∨ conduct.keeps state reached) :
    (Action.ofFunction effect).Follows conduct excused := ⟨faulted, returned⟩

/-- What stays in the other parts of the state is left alone by an action on this part. -/
theorem onPart {conduct : Conduct τ} {part : τ → σ} {replace : τ → σ → τ} {action : Action σ α}
    (admitted : ∀ {state reached fault}, action.perform state = (.error fault, reached) →
      conduct.admits fault)
    (kept : ∀ state inner, conduct.keeps state (replace state inner)) :
    (Action.onPart part replace action).Follows conduct excused where
  faulted {state reached fault} performed := by
    rw [perform_onPart, Prod.mk.injEq] at performed
    obtain ⟨failed, rfl⟩ := performed
    exact ⟨admitted (Prod.ext failed rfl), kept _ _⟩
  returned {state reached value} performed := by
    rw [perform_onPart, Prod.mk.injEq] at performed
    obtain ⟨_, rfl⟩ := performed
    exact Or.inr (kept _ _)

/-- A conduct of the part of the state that an action works on. -/
theorem liftPart {conduct : Conduct σ} {whole : Conduct τ} {part : τ → σ} {replace : τ → σ → τ}
    {action : Action σ α} (follows : action.Follows conduct False)
    (admitted : ∀ fault, whole.admits fault)
    (kept : ∀ state inner, conduct.keeps (part state) inner →
      whole.keeps state (replace state inner)) :
    (Action.onPart part replace action).Follows whole excused :=
  .of_keeps admitted fun state => kept state _ (follows.keeps (part state))

theorem mapFault {f : Fault → Fault} {action : Action σ α}
    (follows : action.Follows conduct False) (admitted : ∀ fault, conduct.admits fault) :
    (Action.mapFault f action).Follows conduct excused := by
  refine .of_keeps admitted fun state => ?_
  have kept := follows.keeps state
  rw [perform_mapFault]
  rcases performed : action.perform state with ⟨fault | value, reached⟩ <;>
    rw [performed] at kept <;> exact kept

/-- Only the last part of a sequence can be excused. -/
theorem bind {action : Action σ α} {next : α → Action σ β} (first : action.Follows conduct False)
    (second : ∀ value, (next value).Follows conduct excused) :
    (action >>= next).Follows conduct excused where
  faulted {state reached fault} performed := by
    rw [perform_bind] at performed
    split at performed
    · next value middle before =>
      have kept := (first.returned before).resolve_left id
      obtain ⟨admitted, after⟩ := (second value).faulted performed
      exact ⟨admitted, conduct.trans kept after⟩
    · next failed =>
      cases performed
      exact first.faulted failed
  returned {state reached value} performed := by
    rw [perform_bind] at performed
    split at performed
    · next value middle before =>
      have kept := (first.returned before).resolve_left id
      exact ((second value).returned performed).imp id (conduct.trans kept)
    · cases performed

/-- What never fails follows every conduct, if it is excused. -/
theorem of_never {never : Conduct σ} {other : Prop} {action : Action σ α}
    (impossible : ∀ fault, ¬ never.admits fault) (follows : action.Follows never other) :
    action.Follows conduct True where
  faulted failed := absurd (follows.faulted failed).1 (impossible _)
  returned _ := Or.inl trivial

/-- Behind an excused step a sequence can only go on with what never fails. -/
theorem bindNever {never : Conduct σ} {other : Prop} {action : Action σ α}
    {next : α → Action σ β} (impossible : ∀ fault, ¬ never.admits fault)
    (first : action.Follows conduct True) (second : ∀ value, (next value).Follows never other) :
    (action >>= next).Follows conduct True where
  faulted {state reached fault} performed := by
    rw [perform_bind] at performed
    split at performed
    · next value middle before =>
      exact absurd ((second value).faulted performed).1 (impossible fault)
    · next failed =>
      cases performed
      exact first.faulted failed
  returned _ := Or.inl trivial

/-- What only returns a value afterwards does not make the last step any less last. -/
theorem andReturn {action : Action σ α} {answer : α → β} (follows : action.Follows conduct excused) :
    (action >>= fun value => Pure.pure (answer value)).Follows conduct excused where
  faulted {state reached fault} performed := by
    rw [perform_bind] at performed
    split at performed
    · cases performed
    · next failed =>
      cases performed
      exact follows.faulted failed
  returned {state reached value} performed := by
    rw [perform_bind] at performed
    split at performed
    · next before =>
      cases performed
      exact follows.returned before
    · cases performed

end Follows

/--
An action on a larger state answers what a plain action answers, and does the same to the part of
the state that the plain action works on.
-/
def Erases (part : τ → σ) (action : Action τ α) (plain : Action σ α) : Prop :=
  ∀ state, (action.perform state).1 = (plain.perform (part state)).1 ∧
    part (action.perform state).2 = (plain.perform (part state)).2

namespace Erases

theorem pure (part : τ → σ) (value : α) :
    Erases part (Pure.pure value) (Pure.pure value) := fun _ => ⟨rfl, rfl⟩

theorem ask (part : τ → σ) (question : σ → Except Fault α) :
    Erases part (Action.ask fun state => question (part state)) (Action.ask question) :=
  fun _ => ⟨rfl, rfl⟩

theorem onPart {part : τ → σ} {replace : τ → σ → τ}
    (replaced : ∀ state inner, part (replace state inner) = inner) (plain : Action σ α) :
    Erases part (Action.onPart part replace plain) plain := fun _ => ⟨rfl, replaced _ _⟩

theorem bind {part : τ → σ} {action : Action τ α} {plain : Action σ α}
    {next : α → Action τ β} {plainNext : α → Action σ β} (first : Erases part action plain)
    (second : ∀ value, Erases part (next value) (plainNext value)) :
    Erases part (action >>= next) (plain >>= plainNext) := by
  intro state
  obtain ⟨answer, after⟩ := first state
  rw [Action.perform_bind, Action.perform_bind]
  rcases acted : action.perform state with ⟨outcome, reached⟩
  rcases plainly : plain.perform (part state) with ⟨plainOutcome, inner⟩
  rw [acted, plainly] at answer after
  dsimp only at answer after
  subst answer after
  cases outcome with
  | error fault => exact ⟨rfl, rfl⟩
  | ok value => exact second value reached

end Erases

end Action

end ArmBoard
