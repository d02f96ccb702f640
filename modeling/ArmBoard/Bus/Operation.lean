import ArmBoard.Bus.Subscription
import ArmBoard.Memory.Paged

/-!
# Operations on the bus

What the owner of the machine, or an observer in its reaction, can ask of the
bus, and the replies. An access is either plain or tracked; only tracked
accesses are reported to observers. An observer asks one thing after the other,
and what it asks next can depend on all the replies so far.
-/
namespace ArmBoard

inductive Operation where
  | read (width : Width) (address : Word) (tracked : Bool)
  | write (width : Width) (address : Word) (value : BitVec (8 * width.bytes)) (tracked : Bool)
  /-- Adds to the plain word at an address, which counts as zero where it cannot be read. -/
  | addWord (address value : Word)
  | putChunk (address : Word) (bytes : List Byte)
  | chunk (address : Word) (count : Nat)
  | pages
  | extent
  | observe (holder : Handle) (watch : Watch)
  | unobserve (id : Nat)
  deriving Repr

inductive Reply where
  | value (width : Width) (bits : BitVec (8 * width.bytes))
  | done
  | count (bytes : Nat)
  | bytes (bytes : List Byte)
  | pages (addresses : List Nat)
  | extent (size pageSize : Nat)
  | subscription (id : Nat)
  | removed (known : Bool)
  deriving Repr

/--
What an observer does from when it is called until it returns: operations, each of which may depend
on the replies to those before it.
-/
inductive Reaction where
  /-- The observer returns and keeps something in mind until it is called again. -/
  | finish (kept : Nat)
  | operate (operation : Operation) (next : Except Fault Reply → Reaction)

/-- The given operations in order, whatever the replies. Nothing is kept in mind. -/
def Reaction.ofList : List Operation → Reaction
  | [] => .finish 0
  | operation :: rest => .operate operation fun _ => ofList rest

end ArmBoard
