import ArmBoard.Proofs.Peripheral.Mailbox

/-!
# What a refused request leads to

A step takes the waiting mail before it tries to answer it. If no framebuffer
can be allocated, nothing waits any longer, but the unit has not become ready
again either. From then on it is closed for good: no access and no step opens
the mailbox. This is the only way in which the mailbox is ever closed while
nothing waits.
-/
namespace ArmBoard

/-- The mailbox is closed although no mail waits. -/
def Gpu.Wedged (gpu : Gpu) : Prop := gpu.writeReady = false ∧ gpu.pending? = none

/-- The program may access whatever it likes, the status register included. -/
def Move.IsOrdinary : Move → Prop
  | .access operation => operation.isAccess = true
  | .step => True

namespace Bus

def refuses (holder : Handle) (bus : Bus) : Move → Bool
  | .access _ => false
  | .step => !((step holder).perform bus).1.isOk

/-- Whether some step of a sequence of moves stops with a fault. -/
def everRefuses (holder : Handle) : Bus → List Move → Bool
  | _, [] => false
  | bus, move :: rest => bus.refuses holder move || everRefuses holder (bus.move holder move) rest

variable {holder : Handle} {base : Word} {gpu : Gpu} {bus : Bus}

theorem Serves.wedged_iff {memory : Memory} {operation : Operation} {outcome : Except Fault Reply}
    {after : Gpu × Memory} (serves : Serves base gpu memory operation outcome after) :
    after.1.Wedged ↔ gpu.Wedged := by
  cases serves with
  | failed => rfl
  | plain => rfl
  | tracked _ _ reacts =>
    cases reacts with
    | latched accepts =>
      -- The unit was ready before, and now a mail waits.
      constructor
      · rintro ⟨_, idle⟩
        cases idle
      · rintro ⟨closed, _⟩
        rw [accepts.2.1] at closed
        cases closed
    | emptied => rfl
    | ignored => rfl

theorem Steps.wedged_iff {memory : Memory} {outcome : Except Fault Unit} {after : Gpu × Memory}
    (steps : Steps base gpu memory outcome after)
    (waiting : gpu.pending?.isSome → gpu.writeReady = false) :
    after.1.Wedged ↔ gpu.Wedged ∨ outcome.isOk = false := by
  cases steps with
  | idle => simp [Except.isOk, Except.toBool]
  | refused waited _ =>
    -- The mail is gone, and what had closed the mailbox for it has not been undone.
    have closed := waiting (by simp [waited])
    simp [Gpu.Wedged, closed, Except.isOk, Except.toBool]
  | answered waited ready =>
    simp [Gpu.Wedged, ready, waited, Except.isOk, Except.toBool]

theorem Steps.waiting {memory : Memory} {outcome : Except Fault Unit} {after : Gpu × Memory}
    (steps : Steps base gpu memory outcome after) :
    after.1.pending?.isSome → after.1.writeReady = false := by
  intro waits
  rw [steps.taken] at waits
  cases waits

namespace Attends

/-- One move: only a step that stops with a fault wedges the mailbox, and nothing frees it. -/
theorem move_wedged_iff (attends : Attends holder base gpu bus)
    (waiting : gpu.pending?.isSome → gpu.writeReady = false) {move : Move}
    (ordinary : move.IsOrdinary) :
    ∃ after, Attends holder base after (bus.move holder move) ∧
      (after.pending?.isSome → after.writeReady = false) ∧
      (after.Wedged ↔ gpu.Wedged ∨ bus.refuses holder move = true) := by
  cases move with
  | access operation =>
    obtain ⟨after, attending, serves⟩ := attends.served ordinary
    refine ⟨after, attending, serves.waiting waiting, ?_⟩
    have same : after.Wedged ↔ gpu.Wedged := serves.wedged_iff
    simp [same, refuses]
  | step =>
    obtain ⟨after, attending, steps⟩ := attends.stepped
    refine ⟨after, attending, steps.waiting, ?_⟩
    have wedged : after.Wedged ↔ _ := steps.wedged_iff waiting
    simp [wedged, refuses]

theorem moves_wedged_iff (attends : Attends holder base gpu bus)
    (waiting : gpu.pending?.isSome → gpu.writeReady = false) {moves : List Move}
    (ordinary : ∀ move ∈ moves, move.IsOrdinary) :
    ∃ after, Attends holder base after (bus.moves holder moves) ∧
      (after.pending?.isSome → after.writeReady = false) ∧
      (after.Wedged ↔ gpu.Wedged ∨ bus.everRefuses holder moves = true) := by
  induction moves generalizing gpu bus with
  | nil => exact ⟨gpu, attends, waiting, by simp [everRefuses]⟩
  | cons move rest ih =>
    obtain ⟨first, later⟩ := List.forall_mem_cons.mp ordinary
    obtain ⟨between, attending, still, wedges⟩ := attends.move_wedged_iff waiting first
    obtain ⟨after, arriving, last, wedged⟩ := ih attending still later
    refine ⟨after, arriving, last, ?_⟩
    rw [wedged, wedges, everRefuses, Bool.or_eq_true, or_assoc]

end Attends

/--
A unit that is put to use with no mail waiting is closed exactly while a mail waits, and for good
once a step has stopped with a fault.
-/
theorem closed_iff_waiting_or_refused {unused : Bus} {unit : Gpu} {started : Attachment}
    {moves : List Move} (present : unused.watchers[holder]? = some (.gpu unit))
    (placed : unit.mailboxBase? = some base) (alone : unused.registry.subscriptions = [])
    (room : Gpu.Room base unused.memory)
    (initialized : (Machine.startAttachment ⟨holder, none⟩).perform unused = (.ok started, bus))
    (empty : unit.pending? = none) (ordinary : ∀ move ∈ moves, move.IsOrdinary) :
    ∃ gpu, (bus.moves holder moves).gpu? holder = some gpu ∧
      (gpu.writeReady = false ↔ gpu.pending? ≠ none ∨ bus.everRefuses holder moves = true) ∧
      (bus.everRefuses holder moves = true → gpu.pending? = none) := by
  have keeps := keeps_of_started present placed alone room initialized
  obtain ⟨gpu, attends, waiting, wedged⟩ :=
    keeps.toAttends.moves_wedged_iff (by simp [empty]) ordinary
  -- In the beginning the unit is ready.
  simp only [Gpu.Wedged, Bool.true_eq_false, false_and, false_or] at wedged
  refine ⟨gpu, attends.gpu?_eq, ⟨fun closed => ?_, ?_⟩, fun refused => (wedged.mpr refused).2⟩
  · cases held : gpu.pending? with
    | none => exact Or.inr (wedged.mp ⟨closed, held⟩)
    | some mail => exact Or.inl nofun
  · rintro (held | refused)
    · exact waiting (Option.isSome_iff_ne_none.mpr held)
    · exact (wedged.mpr refused).1

/-- A bus with a unit that has no more than 256 bytes for its framebuffers. -/
def cramped : Bus :=
  { ofMemory (.blank 0x10000 4) with watchers := #[.gpu (.create (some 0x1000) (some 0x100))] }

def crampedInUse : Bus := ((Machine.startAttachment ⟨0, none⟩).perform cramped).2

theorem cramped_starts : (Machine.startAttachment ⟨0, none⟩).perform cramped =
    (.ok ⟨0, some [1]⟩, crampedInUse) := rfl

/-- A program asks for a framebuffer of 640 by 480 pixels. -/
def greedy : List Move :=
  [.access (.write .word 0x2000 640 false), .access (.write .word 0x2004 480 false),
    .access (.write .word 0x2008 640 false), .access (.write .word 0x200C 480 false),
    .access (.write .word 0x2014 16 false), .access (.write .word 0x1020 0x2001 true), .step]

theorem greedy_is_ordinary : ∀ move ∈ greedy, move.IsOrdinary := by
  intro move member
  simp only [greedy, List.mem_cons, List.not_mem_nil, or_false] at member
  rcases member with rfl | rfl | rfl | rfl | rfl | rfl | rfl <;> trivial

/-- The request is refused, and the mailbox stays closed. -/
theorem greedy_is_refused :
    ∃ started bus gpu, (Machine.startAttachment ⟨0, none⟩).perform cramped = (.ok started, bus) ∧
      (bus.moves 0 greedy).gpu? 0 = some gpu ∧ gpu.writeReady = false ∧
      gpu.pending? = none := by
  have room : Gpu.Room 0x1000 cramped.memory := ⟨by decide, by decide⟩
  have refused : crampedInUse.everRefuses 0 greedy = true := by decide +kernel
  obtain ⟨gpu, present, closed, empty⟩ :=
    closed_iff_waiting_or_refused rfl rfl rfl room cramped_starts rfl greedy_is_ordinary
  exact ⟨_, _, gpu, cramped_starts, present, closed.mpr (Or.inr refused), empty refused⟩

/-- It is not true that the mailbox is closed only while a mail waits. -/
theorem mailbox_closed_without_mail :
    ¬ ∀ started bus, (Machine.startAttachment ⟨0, none⟩).perform cramped = (.ok started, bus) →
      ∀ moves : List Move, (∀ move ∈ moves, move.IsOrdinary) →
        ∀ gpu, (bus.moves 0 moves).gpu? 0 = some gpu → gpu.writeReady = false →
          gpu.pending? ≠ none := by
  intro alive
  let closed : Gpu := ⟨some 0x1000, some 0x100, true, false, false, none, none⟩
  have present : (crampedInUse.moves 0 greedy).gpu? 0 = some closed := by decide +kernel
  exact alive _ _ cramped_starts greedy greedy_is_ordinary closed present rfl rfl

end Bus

end ArmBoard
