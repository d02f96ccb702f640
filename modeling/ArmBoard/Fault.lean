import ArmBoard.Text.Hexadecimal

/-!
# Faults

Everything that can stop the machine, as causes. The wording of each cause is
given by the `message` functions and nowhere else. An opcode fault is raised
before it is known where the instruction lies; `Fault.atAddress` adds the address.
-/
namespace ArmBoard

open Text

/-- Why a recognised instruction is refused. -/
inductive Objection where
  | shiftAmountRegister
  | multiplyRegister
  | accumulateRegister
  | multiplyDestination
  | longMultiplyRegister
  | longDestinationsEqual
  | longDestination
  | swapRegister
  | byteReverseRegister
  | statusReadTarget
  | statusWriteSource
  | baseWriteBack
  | offsetRegister
  | oddPair
  | pairRegister
  | pairOverlapsBase
  | pairOverlapsOffset
  | reservedCondition
  | thumbTarget
  /-- A reason that the caller words. -/
  | other (text : String)
  deriving DecidableEq, Repr

def Objection.message : Objection → String
  | .shiftAmountRegister => "r15 cannot hold a shift amount"
  | .multiplyRegister => "multiply cannot use r15"
  | .accumulateRegister => "multiply accumulate cannot use r15"
  | .multiplyDestination => "multiply destination and rm must differ"
  | .longMultiplyRegister => "multiply long cannot use r15"
  | .longDestinationsEqual => "multiply long destinations must differ"
  | .longDestination => "multiply long destinations and rm must differ"
  | .swapRegister => "swap cannot use r15"
  | .byteReverseRegister => "byte reverse cannot use r15"
  | .statusReadTarget => "MRS cannot target r15"
  | .statusWriteSource => "MSR cannot read r15"
  | .baseWriteBack => "write-back to r15"
  | .offsetRegister => "r15 cannot be an offset register"
  | .oddPair => "doubleword transfers need an even register"
  | .pairRegister => "doubleword transfers cannot use r14"
  | .pairOverlapsBase => "doubleword transfer registers overlap the base"
  | .pairOverlapsOffset => "doubleword transfer registers overlap the offset"
  | .reservedCondition => "the NV condition is reserved"
  | .thumbTarget => "Thumb state is not supported"
  | .other text => text

/-- A field whose value no rule handles. -/
inductive UnhandledField where
  | halfStoreKind
  | halfTransferKind
  | framebufferDepth
  /-- A field that the caller names. -/
  | other (text : String)
  deriving DecidableEq, Repr

def UnhandledField.message : UnhandledField → String
  | .halfStoreKind => "halfword store kind"
  | .halfTransferKind => "halfword transfer kind"
  | .framebufferDepth => "framebuffer bit depth"
  | .other text => text

/-- A request that the machine's owner should not have made. -/
inductive Misuse where
  | pageSize (bytes : Nat)
  | emptyWatch (address : Word)
  | deafWatch (address : Word)
  | mailboxBaseFixed
  | framebufferEndFixed
  | mailboxBaseMissing
  | framebufferEndMissing
  | pitchOverflow
  | framebufferOverflow
  | framebufferRoom (size limit : Word)
  | timerBaseFixed
  | timerBaseMissing
  | emptyPrefetch
  /-- A complaint that the caller words. -/
  | other (text : String)
  deriving DecidableEq, Repr

def Misuse.message : Misuse → String
  | .pageSize bytes => "page size " ++ toString bytes ++ " is not a power of two"
  | .emptyWatch address => "empty subscription at " ++ hexWord address
  | .deafWatch address => "subscription at " ++ hexWord address ++ " listens to no event"
  | .mailboxBaseFixed => "cannot change the GPU mailbox base after first use"
  | .framebufferEndFixed => "cannot change the GPU framebuffer end after first use"
  | .mailboxBaseMissing => "GPU mailbox base is not configured"
  | .framebufferEndMissing => "GPU framebuffer end is not configured"
  | .pitchOverflow => "framebuffer pitch overflows"
  | .framebufferOverflow => "framebuffer size overflows"
  | .framebufferRoom size limit =>
      "a framebuffer of " ++ hex size.toNat ++ " bytes does not fit below " ++ hexWord limit
  | .timerBaseFixed => "cannot change the timer base after first use"
  | .timerBaseMissing => "timer base is not configured"
  | .emptyPrefetch => "empty prefetch queue"
  | .other text => text

/-- Everything that can stop the machine. -/
inductive Fault where
  /-- A recognised instruction with a forbidden combination of operands. -/
  | illegal (opcode address : Word) (objection : Objection)
  /-- A word that no decoding rule recognises. -/
  | unknown (opcode address : Word)
  /-- A field of an instruction or a descriptor with a value outside its rules. -/
  | unhandled (field : UnhandledField) (value : Word)
  /-- An access that leaves memory; `address` is the lowest byte touched outside. -/
  | outOfRange (address size : Nat)
  /-- A mode without a saved status register. -/
  | noSavedStatus (mode : Word)
  /-- A request that the owner of the machine should not have made. -/
  | misuse (what : Misuse)
  /-- An instruction, built by hand, that names a register above r15. -/
  | noSuchRegister (number : Nat)
  deriving DecidableEq, Repr

namespace Fault

def message : Fault → String
  | illegal opcode address objection =>
      "illegal opcode " ++ hexWord opcode ++ " at " ++ hexWord address ++ ": " ++ objection.message
  | unknown opcode address => "unknown opcode " ++ hexWord opcode ++ " at " ++ hexWord address
  | unhandled field value => "unhandled " ++ field.message ++ ": " ++ hex value.toNat
  | outOfRange address size =>
      "address " ++ hex address ++ " is out of range, memory size is " ++ hex size
  | noSavedStatus mode => "cpu mode " ++ hex mode.toNat ++ " has no saved status register"
  | misuse what => what.message
  | noSuchRegister number => "no register " ++ toString number

/-- Writes the address of the instruction into an opcode fault; other faults stay as they are. -/
def atAddress (address : Word) : Fault → Fault
  | illegal opcode _ objection => illegal opcode address objection
  | unknown opcode _ => unknown opcode address
  | fault => fault

/-- A sequence has succeeded when both its parts have. -/
theorem eq_ok_of_bind {α β : Type} {first : Except Fault α} {next : α → Except Fault β} {result : β}
    (succeeded : first >>= next = .ok result) :
    ∃ value, first = .ok value ∧ next value = .ok result := by
  cases first with
  | error fault => cases succeeded
  | ok value => exact ⟨value, rfl, succeeded⟩

/-- A sequence fails as another one with the same first part does, if the rest fails as its rest. -/
theorem bind_eq_error {α β γ : Type} {first : Except Fault α} {next : α → Except Fault β}
    {other : α → Except Fault γ} {fault : Fault}
    (rest : ∀ value, other value = .error fault → next value = .error fault)
    (failed : first >>= other = .error fault) : first >>= next = .error fault := by
  cases first with
  | error =>
    cases failed
    rfl
  | ok value => exact rest value failed

end Fault

end ArmBoard
