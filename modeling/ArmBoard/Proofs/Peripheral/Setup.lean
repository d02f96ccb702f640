import ArmBoard.Action
import ArmBoard.Peripheral.Gpu
import ArmBoard.Proofs.Memory.Frame

/-!
# Setting up the graphics unit

A unit is placed and then put to use. A start for which an address is missing
leaves the unit as it was, so that it can still be placed and started. A start
that finds both addresses fixes them before it shows the status for the first
time. If the status register lies outside memory that start fails, and the unit
is stranded: whatever is tried afterwards, it stays where it cannot be started.
-/
namespace ArmBoard

/-- What is done to a unit and its memory before the unit is in use. -/
inductive Setup where
  | placeMailbox (base : Word)
  | placeEnd (limit : Word)
  | start
  /-- Stores bytes in memory, as far as they fit. -/
  | fill (address : Word) (bytes : List Byte)

namespace Setup

open ArmBoard.Action

def action : Setup → Action (Gpu × Memory) Unit
  | placeMailbox base => .changeOr fun (gpu, memory) => (gpu.setMailboxBase base).map (·, memory)
  | placeEnd limit => .changeOr fun (gpu, memory) => (gpu.setFramebufferEnd limit).map (·, memory)
  | start => .ofFunction fun (gpu, memory) =>
      let (outcome, after) := gpu.start memory
      (outcome.map fun _ => (), after)
  | fill address bytes => .change fun (gpu, memory) => (gpu, (memory.putChunk address bytes).2)

/-- Whether something is asked of the unit, which it may refuse. -/
def concernsUnit : Setup → Bool
  | fill _ _ => false
  | _ => true

/-- The unit and its memory after a history of attempts, refused ones included. -/
def performAll : List Setup → Gpu × Memory → Gpu × Memory
  | [], reached => reached
  | setup :: rest, reached => performAll rest (setup.action.perform reached).2

end Setup

namespace Gpu

/-- Both addresses have been placed. -/
def IsPlaced (gpu : Gpu) : Prop := gpu.mailboxBase?.isSome ∧ gpu.framebufferEnd?.isSome

/-- The unit with fixed addresses and the flags of a unit that has not been used. -/
def started (gpu : Gpu) : Gpu := { gpu with fixed := true, writeReady := true, readReady := false }

/-- The ways in which a start fails, with the fault and what becomes of the unit. -/
inductive FailsToStart (gpu : Gpu) (memory : Memory) : Fault → Gpu → Prop
  | mailboxMissing (missing : gpu.mailboxBase? = none) :
      FailsToStart gpu memory (.misuse .mailboxBaseMissing) gpu
  | endMissing {base : Word} (placed : gpu.mailboxBase? = some base)
      (missing : gpu.framebufferEnd? = none) :
      FailsToStart gpu memory (.misuse .framebufferEndMissing) gpu
  /-- The status register lies outside memory; the addresses are fixed all the same. -/
  | statusOutside {base limit : Word} (placed : gpu.mailboxBase? = some base)
      (ended : gpu.framebufferEnd? = some limit)
      (leaves : memory.size < (base + statusOffset).toNat + 4) :
      FailsToStart gpu memory (memory.beyond (base + statusOffset)) gpu.started

variable {gpu after : Gpu} {memory left : Memory} {fault : Fault} {base limit : Word}

section Placed

variable (placed : gpu.mailboxBase? = some base) (ended : gpu.framebufferEnd? = some limit)
include placed ended

/-- With both addresses placed, a start stands or falls with the status register. -/
theorem start_of_placed :
    gpu.start memory = match memory.writeWord (base + statusOffset) gpu.started.statusWord with
      | .error fault => (.error fault, gpu.started, memory)
      | .ok written => (.ok [watch base], gpu.started, written) := by
  obtain ⟨mailboxBase?, limit?, fixed, readReady, writeReady, pending?, frame?⟩ := gpu
  obtain rfl : mailboxBase? = some base := placed
  obtain rfl : limit? = some limit := ended
  rfl

theorem start_of_outside (leaves : memory.size < (base + statusOffset).toNat + 4) :
    gpu.start memory = (.error (memory.beyond (base + statusOffset)), gpu.started, memory) := by
  rw [start_of_placed placed ended, Memory.writeWord, Memory.write_eq_beyond leaves]

theorem start_of_inside (inside : (base + statusOffset).toNat + 4 ≤ memory.size) :
    ∃ written, gpu.start memory = (.ok [watch base], gpu.started, written) := by
  obtain ⟨written, stored⟩ := Memory.exists_write_eq_ok inside gpu.started.statusWord
  refine ⟨written, ?_⟩
  rw [start_of_placed placed ended, Memory.writeWord, stored]

end Placed

theorem failsToStart_of_start (failed : gpu.start memory = (.error fault, after, left)) :
    left = memory ∧ gpu.FailsToStart memory fault after := by
  cases placed : gpu.mailboxBase? with
  | none =>
    rw [start, mailboxBase, placed] at failed
    cases failed
    exact ⟨rfl, .mailboxMissing placed⟩
  | some base =>
    cases ended : gpu.framebufferEnd? with
    | none =>
      rw [start, mailboxBase, placed, framebufferEnd, ended] at failed
      cases failed
      exact ⟨rfl, .endMissing placed ended⟩
    | some limit =>
      by_cases inside : (base + statusOffset).toNat + 4 ≤ memory.size
      · obtain ⟨written, succeeded⟩ := start_of_inside placed ended inside
        rw [succeeded] at failed
        cases failed
      · have leaves := Nat.lt_of_not_le inside
        rw [start_of_outside placed ended leaves] at failed
        cases failed
        exact ⟨rfl, .statusOutside placed ended leaves⟩

/-- A unit that is not fixed can be moved to any place in memory, and started there. -/
theorem perform_placing (free : gpu.fixed = false)
    (inside : (base + statusOffset).toNat + 4 ≤ memory.size) (limit : Word) :
    ∃ written, (do
        (Setup.placeMailbox base).action
        (Setup.placeEnd limit).action
        Setup.start.action : Action (Gpu × Memory) Unit).perform (gpu, memory) =
      (.ok (), { gpu with mailboxBase? := some base, framebufferEnd? := some limit }.started,
        written) := by
  let placed : Gpu := { gpu with mailboxBase? := some base, framebufferEnd? := some limit }
  have moved : (Setup.placeMailbox base).action.perform (gpu, memory) =
      (.ok (), { gpu with mailboxBase? := some base }, memory) := by
    simp [Setup.action, Action.perform, Action.changeOr, setMailboxBase, free, Except.map]
  have bounded : (Setup.placeEnd limit).action.perform
      ({ gpu with mailboxBase? := some base }, memory) = (.ok (), placed, memory) := by
    simp [Setup.action, Action.perform, Action.changeOr, setFramebufferEnd, free, Except.map, placed]
  have there : placed.mailboxBase? = some base := rfl
  obtain ⟨written, started⟩ := start_of_inside there rfl inside
  refine ⟨written, ?_⟩
  rw [Action.perform_bind, moved]
  dsimp only
  rw [Action.perform_bind, bounded]
  dsimp only
  rw [Setup.action, Action.perform_ofFunction]
  dsimp only
  rw [started]
  rfl

/-- The addresses are fixed, and the status register lies outside memory. -/
structure Stranded (gpu : Gpu) (memory : Memory) : Prop where
  fixed : gpu.fixed = true
  ready : gpu.writeReady = true
  silent : gpu.readReady = false
  outside : ∃ base limit, gpu.mailboxBase? = some base ∧ gpu.framebufferEnd? = some limit ∧
    memory.size < (base + statusOffset).toNat + 4

namespace Stranded

theorem started_eq (stranded : gpu.Stranded memory) : gpu.started = gpu := by
  obtain ⟨mailboxBase?, limit?, fixed, readReady, writeReady, pending?, frame?⟩ := gpu
  obtain ⟨rfl, rfl, rfl, _⟩ := stranded
  rfl

/-- One attempt: nothing is accepted, and only the bytes in memory can change. -/
theorem perform_action (stranded : gpu.Stranded memory) (setup : Setup) :
    ∃ filled, (setup.action.perform (gpu, memory)).2 = (gpu, filled) ∧
      filled.size = memory.size ∧
      (setup.concernsUnit = true →
        ∃ fault, (setup.action.perform (gpu, memory)).1 = .error fault) := by
  cases setup with
  | placeMailbox address | placeEnd address =>
    simp [Setup.action, Action.perform, Action.changeOr, setMailboxBase, setFramebufferEnd,
      stranded.fixed, Except.map]
  | start =>
    obtain ⟨base, limit, placed, ended, leaves⟩ := stranded.outside
    refine ⟨memory, ?_⟩
    rw [Setup.action, Action.perform_ofFunction]
    dsimp only
    rw [start_of_outside placed ended leaves, stranded.started_eq]
    exact ⟨rfl, rfl, fun _ => ⟨_, rfl⟩⟩
  | fill address bytes =>
    exact ⟨_, rfl, (Memory.changedIn_putChunk memory address bytes).size,
      fun concerns => absurd concerns Bool.false_ne_true⟩

theorem of_size (stranded : gpu.Stranded memory) (size : left.size = memory.size) :
    gpu.Stranded left :=
  ⟨stranded.fixed, stranded.ready, stranded.silent, size ▸ stranded.outside⟩

/-- By induction on the history: no attempt changes what strands the unit. -/
theorem performAll_eq (stranded : gpu.Stranded memory) (history : List Setup) :
    ∃ filled, Setup.performAll history (gpu, memory) = (gpu, filled) ∧ gpu.Stranded filled := by
  induction history generalizing memory with
  | nil => exact ⟨memory, rfl, stranded⟩
  | cons setup rest ih =>
    obtain ⟨filled, reached, size, _⟩ := stranded.perform_action setup
    rw [Setup.performAll, reached]
    exact ih (stranded.of_size size)

end Stranded

/--
A failed start never changes memory. If an address was missing, the unit is as before, and as long
as it has not been fixed it can be placed and started anywhere in memory. If both addresses had
been placed, the status register lies outside memory and the unit has been fixed: from then on,
after whatever history, it is the same unit and refuses to be placed and to be started.
-/
theorem failed_start_strands_a_placed_unit
    (failed : gpu.start memory = (.error fault, after, left)) :
    left = memory ∧ gpu.FailsToStart memory fault after ∧
    (¬ gpu.IsPlaced → after = gpu ∧ (gpu.fixed = false → ∀ base limit : Word,
      (base + statusOffset).toNat + 4 ≤ memory.size → ∃ written, (do
          (Setup.placeMailbox base).action
          (Setup.placeEnd limit).action
          Setup.start.action : Action (Gpu × Memory) Unit).perform (after, left) =
        (.ok (), { gpu with mailboxBase? := some base, framebufferEnd? := some limit }.started,
          written))) ∧
    (gpu.IsPlaced → after = gpu.started ∧ ∀ history : List Setup,
      (Setup.performAll history (after, left)).1 = gpu.started ∧
      ∀ setup : Setup, setup.concernsUnit = true →
        ∃ fault, (setup.action.perform (Setup.performAll history (after, left))).1 =
          .error fault) := by
  obtain ⟨rfl, fails⟩ := failsToStart_of_start failed
  refine ⟨rfl, fails, fun missing => ?_, fun both => ?_⟩
  · have same : after = gpu := by
      cases fails with
      | mailboxMissing | endMissing => rfl
      | statusOutside placed ended => exact absurd (by simp [IsPlaced, placed, ended]) missing
    subst same
    exact ⟨rfl, fun free base limit inside => perform_placing free inside limit⟩
  · obtain ⟨rfl, stranded⟩ : after = gpu.started ∧ gpu.started.Stranded left := by
      cases fails with
      | mailboxMissing missing => simp [IsPlaced, missing] at both
      | endMissing _ missing => simp [IsPlaced, missing] at both
      | statusOutside placed ended leaves => exact ⟨rfl, rfl, rfl, rfl, _, _, placed, ended, leaves⟩
    refine ⟨rfl, fun history => ?_⟩
    obtain ⟨filled, reached, still⟩ := stranded.performAll_eq history
    rw [reached]
    refine ⟨rfl, fun setup concerns => ?_⟩
    obtain ⟨_, _, _, refused⟩ := still.perform_action setup
    exact refused concerns

/-- A unit whose block of registers begins at the end of a small memory. -/
def misplaced : Gpu := .create (some 0x10000) (some 0x100)

theorem misplaced_fails : misplaced.start (.blank 0x10000 12) =
    (.error (.outOfRange 0x10018 0x10000), misplaced.started, .blank 0x10000 12) := rfl

/-- The misplaced unit cannot be moved any more, not even when it has been started again. -/
theorem misplaced_cannot_be_moved :
    misplaced.start (.blank 0x10000 12) =
      (.error (.outOfRange 0x10018 0x10000), misplaced.started, .blank 0x10000 12) ∧
    ∃ fault, ((Setup.placeMailbox 0x1000).action.perform
      (Setup.performAll [.placeEnd 0, .fill 0x2000 [1, 2], .start]
        (misplaced.started, .blank 0x10000 12))).1 = .error fault := by
  have placed : misplaced.IsPlaced := ⟨rfl, rfl⟩
  obtain ⟨_, stays⟩ := (failed_start_strands_a_placed_unit misplaced_fails).2.2.2 placed
  exact ⟨misplaced_fails, (stays [.placeEnd 0, .fill 0x2000 [1, 2], .start]).2 _ rfl⟩

/-- It is not true that a failed start leaves a unit as it was, free to be moved. -/
theorem failed_start_takes_the_freedom_to_move :
    ¬ ∀ (gpu after : Gpu) (memory left : Memory) (fault : Fault),
      gpu.start memory = (.error fault, after, left) →
        after = gpu ∧ ((gpu.setMailboxBase 0x1000).isOk → (after.setMailboxBase 0x1000).isOk) := by
  intro keeps
  have refused : (misplaced.started.setMailboxBase 0x1000).isOk = false := rfl
  have accepted := (keeps _ _ _ _ _ misplaced_fails).2 rfl
  rw [refused] at accepted
  cases accepted

end Gpu

end ArmBoard
