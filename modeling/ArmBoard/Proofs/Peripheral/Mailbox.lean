import ArmBoard.Machine.Pipeline
import ArmBoard.Proofs.Peripheral.Attendance

/-!
# The mailbox loses no mail

A program and the graphics unit take turns in any order: the program accesses
memory, the unit steps. As long as the program leaves the status register
alone, the register shows the flags of the unit, a mail that is written while
the register says that there is room is handed to the next step and to no other
one, and a mail that is written while there is no room changes nothing.
-/
namespace ArmBoard

/-- A move of one of the two parties. -/
inductive Move where
  | access (operation : Operation)
  | step
  deriving Repr

/-- A mail that the program has posted, or what a step of the unit finds waiting. -/
inductive Exchange where
  | posted (mail : Word)
  | taken (mail? : Option Word)
  deriving DecidableEq, Repr

/-- The program does not subscribe to anything and leaves the status register to the unit. -/
def Move.Respects (base : Word) : Move → Prop
  | .access operation => operation.isAccess = true ∧
      ∀ place, Gpu.Register base Gpu.statusOffset place → ¬ operation.MayWrite place
  | .step => True

/-- Whether an operation is a tracked write that touches the first byte of the write register. -/
def Operation.posts (base : Word) (operation : Operation) : Bool :=
  match operation.report? with
  | some touch => touch.event == .write && touch.covers (base + Gpu.writeOffset)
  | none => false

namespace Bus

def access (operation : Operation) (bus : Bus) : Except Fault Reply × Bus :=
  (perform (report []) operation).perform bus

def move (holder : Handle) (bus : Bus) : Move → Bus
  | .access operation => (bus.access operation).2
  | .step => ((step holder).perform bus).2

def moves (holder : Handle) (bus : Bus) (moves : List Move) : Bus := moves.foldl (move holder) bus

/-- The mail that the next step of a unit takes. -/
def mail? (holder : Handle) (bus : Bus) : Option Word := (bus.gpu? holder).bind (·.pending?)

def isFull (base : Word) (bus : Bus) : Bool :=
  match bus.memory.readWord (base + Gpu.statusOffset) with
  | .ok status => Bits.test status Gpu.fullBit
  | .error _ => true

/--
The mail that an operation posts, told from memory alone: the write register was written while the
status register said that there was room, and this is the word that it holds now.
-/
def posted? (base : Word) (operation : Operation) (bus : Bus) : Option Word :=
  if operation.posts base && !bus.isFull base && (bus.access operation).1.isOk then
    ((bus.access operation).2.memory.readWord (base + Gpu.writeOffset)).toOption
  else none

def exchange (holder : Handle) (base : Word) (bus : Bus) : Move → List Exchange
  | .access operation => ((bus.posted? base operation).map .posted).toList
  | .step => [.taken (bus.mail? holder)]

/-- All that is posted and taken in a sequence of moves. -/
def exchanges (holder : Handle) (base : Word) : Bus → List Move → List Exchange
  | _, [] => []
  | bus, move :: rest =>
      bus.exchange holder base move ++ exchanges holder base (bus.move holder move) rest

end Bus

/-- Every mail is posted when nothing is held, and whatever is held goes to the next step. -/
inductive Relayed : Option Word → List Exchange → Prop
  | nil {held : Option Word} : Relayed held []
  | posted {mail : Word} {rest : List Exchange} (later : Relayed (some mail) rest) :
      Relayed none (.posted mail :: rest)
  | taken {held : Option Word} {rest : List Exchange} (later : Relayed none rest) :
      Relayed held (.taken held :: rest)

namespace Relayed

variable {held : Option Word} {mail : Word} {before after : List Exchange}

theorem taken_of_posted (relayed : Relayed held (before ++ .posted mail :: after)) :
    after = [] ∨ ∃ later, after = .taken (some mail) :: later := by
  induction before generalizing held with
  | nil =>
    cases relayed with
    | posted later =>
      cases later with
      | nil => exact Or.inl rfl
      | taken => exact Or.inr ⟨_, rfl⟩
  | cons first rest ih =>
    cases relayed with
    | posted later => exact ih later
    | taken later => exact ih later

theorem posted_of_taken (relayed : Relayed held (before ++ .taken (some mail) :: after)) :
    (before = [] ∧ held = some mail) ∨ ∃ earlier, before = earlier ++ [.posted mail] := by
  induction before generalizing held with
  | nil =>
    cases relayed
    exact Or.inl ⟨rfl, rfl⟩
  | cons first rest ih =>
    cases relayed with
    | posted later =>
      rcases ih later with ⟨rfl, same⟩ | ⟨earlier, rfl⟩
      · cases same
        exact Or.inr ⟨[], rfl⟩
      · exact Or.inr ⟨_ :: earlier, rfl⟩
    | taken later =>
      rcases ih later with ⟨_, emptied⟩ | ⟨earlier, rfl⟩
      · cases emptied
      · exact Or.inr ⟨_ :: earlier, rfl⟩

end Relayed

namespace Bus

open Gpu (Room Register Accepts)

variable {holder : Handle} {base : Word} {gpu : Gpu} {bus : Bus}

namespace Serves

variable {memory : Memory} {operation : Operation} {outcome : Except Fault Reply}
  {after : Gpu × Memory}

theorem publishes (serves : Serves base gpu memory operation outcome after)
    (room : Room base memory) (shown : gpu.Publishes base memory)
    (respects : (Move.access operation).Respects base) : after.1.Publishes base after.2 := by
  cases serves with
  | failed => exact shown
  | plain _ changes => exact shown.of_changedIn room changes respects.2
  | tracked _ changes reacts => exact reacts.publishes (shown.of_changedIn room changes respects.2)

theorem waiting (serves : Serves base gpu memory operation outcome after)
    (waiting : gpu.pending?.isSome → gpu.writeReady = false) :
    after.1.pending?.isSome → after.1.writeReady = false := by
  cases serves with
  | failed => exact waiting
  | plain => exact waiting
  | tracked _ _ reacts => exact reacts.waiting waiting

theorem accepts_iff {touch : Touch} (reported : operation.report? = some touch) :
    Accepts base gpu touch ↔ operation.posts base = true ∧ gpu.writeReady = true := by
  rw [Operation.posts, reported]
  simp only [Accepts, Bool.and_eq_true, beq_iff_eq]
  constructor
  · rintro ⟨written, ready, covers⟩
    exact ⟨⟨written, covers⟩, ready⟩
  · rintro ⟨⟨written, covers⟩, ready⟩
    exact ⟨written, ready, covers⟩

theorem latches (serves : Serves base gpu memory operation outcome after)
    (room : Room base memory) (posts : operation.posts base = true)
    (ready : gpu.writeReady = true) (succeeded : outcome.isOk = true) :
    ∃ mail, after.2.readWord (base + Gpu.writeOffset) = .ok mail ∧
      after.1.pending? = some mail := by
  cases serves with
  | failed => cases succeeded
  | plain unreported =>
    rw [Operation.posts, unreported] at posts
    cases posts
  | tracked reported changes reacts =>
    have accepts := (accepts_iff reported).mpr ⟨posts, ready⟩
    cases reacts with
    | @latched mail written _ stands _ shown =>
      -- Showing the flags does not touch the write register.
      have apart (place : Nat) (inside : Register base Gpu.writeOffset place) :
          ¬ Register base Gpu.statusOffset place := Gpu.register_apart (by decide) inside
      have same := (room.of_changedIn changes).readWord_eq (by decide) shown apart
      exact ⟨mail, same.trans stands, rfl⟩
    | emptied declines => exact absurd accepts declines
    | ignored declines => exact absurd accepts declines

/-- Whatever else is done leaves the waiting mail alone. -/
theorem keeps (serves : Serves base gpu memory operation outcome after)
    (declines : ¬ (operation.posts base = true ∧ gpu.writeReady = true ∧ outcome.isOk = true)) :
    after.1.pending? = gpu.pending? := by
  cases serves with
  | failed => rfl
  | plain => rfl
  | tracked reported _ reacts =>
    cases reacts with
    | latched accepts =>
      obtain ⟨posts, ready⟩ := (accepts_iff reported).mp accepts
      exact absurd ⟨posts, ready, rfl⟩ declines
    | emptied => rfl
    | ignored => rfl

end Serves

namespace Steps

variable {memory : Memory} {outcome : Except Fault Unit} {after : Gpu × Memory}

theorem publishes (steps : Steps base gpu memory outcome after)
    (shown : gpu.Publishes base memory) : after.1.Publishes base after.2 := by
  cases steps with
  | idle => exact shown
  | refused => exact shown
  | answered _ _ _ publishes => exact publishes

theorem taken (steps : Steps base gpu memory outcome after) : after.1.pending? = none := by
  cases steps with
  | idle waiting => exact waiting
  | refused => rfl
  | answered _ _ taken => exact taken

theorem answers (steps : Steps base gpu memory outcome after) {mail : Word}
    (waits : gpu.pending? = some mail) :
    (∃ fault, outcome = .error fault ∧ gpu.allocate memory mail = .error fault) ∨
    (outcome = .ok () ∧ after.2.readWord (base + Gpu.readOffset) = .ok (Gpu.channelOf mail)) := by
  cases steps with
  | idle silent =>
    rw [silent] at waits
    cases waits
  | refused waited refused =>
    rw [waits] at waited
    cases waited
    exact Or.inl ⟨_, rfl, refused⟩
  | answered waited _ _ _ answer =>
    rw [waits] at waited
    cases waited
    exact Or.inr ⟨rfl, answer⟩

end Steps

/-- A unit that attends and whose flags the status register shows. -/
structure Keeps (holder : Handle) (base : Word) (gpu : Gpu) (bus : Bus) : Prop
    extends Attends holder base gpu bus where
  publishes : gpu.Publishes base bus.memory

/-- How an exchange changes the mail that waits. -/
inductive Passes (gpu after : Gpu) : List Exchange → Prop
  | silent (kept : after.pending? = gpu.pending?) : Passes gpu after []
  | posted {mail : Word} (ready : gpu.writeReady = true) (latched : after.pending? = some mail) :
      Passes gpu after [.posted mail]
  | taken (empty : after.pending? = none) : Passes gpu after [.taken gpu.pending?]

namespace Keeps

theorem isFull_eq (keeps : Keeps holder base gpu bus) : bus.isFull base = !gpu.writeReady := by
  have publishes := keeps.publishes
  rw [Gpu.Publishes] at publishes
  rw [isFull, publishes]
  exact (Gpu.test_statusWord gpu).2

theorem mail?_eq (keeps : Keeps holder base gpu bus) : bus.mail? holder = gpu.pending? := by
  rw [mail?, keeps.gpu?_eq]
  rfl

theorem access (keeps : Keeps holder base gpu bus) {operation : Operation}
    (respects : (Move.access operation).Respects base) :
    ∃ after, Keeps holder base after (bus.access operation).2 ∧
      Serves base gpu bus.memory operation (bus.access operation).1
        (after, (bus.access operation).2.memory) := by
  obtain ⟨after, attends, serves⟩ := keeps.served respects.1
  exact ⟨after, ⟨attends, serves.publishes keeps.room keeps.publishes respects⟩, serves⟩

theorem passes_access (keeps : Keeps holder base gpu bus) {operation : Operation} {after : Gpu}
    (serves : Serves base gpu bus.memory operation (bus.access operation).1
      (after, (bus.access operation).2.memory)) :
    Passes gpu after (bus.exchange holder base (.access operation)) := by
  rw [exchange, posted?, keeps.isFull_eq, Bool.not_not]
  by_cases accepted :
      (operation.posts base && gpu.writeReady && (bus.access operation).1.isOk) = true
  · rw [if_pos accepted]
    simp only [Bool.and_eq_true] at accepted
    obtain ⟨⟨posts, ready⟩, succeeded⟩ := accepted
    obtain ⟨mail, stands, latched⟩ := serves.latches keeps.room posts ready succeeded
    rw [stands]
    exact .posted ready latched
  · rw [if_neg accepted]
    refine .silent (serves.keeps ?_)
    rintro ⟨posts, ready, succeeded⟩
    simp [posts, ready, succeeded] at accepted

theorem step (keeps : Keeps holder base gpu bus) :
    ∃ after, Keeps holder base after ((Bus.step holder).perform bus).2 ∧ after.pending? = none := by
  obtain ⟨after, attends, steps⟩ := keeps.stepped
  exact ⟨after, ⟨attends, steps.publishes keeps.publishes⟩, steps.taken⟩

theorem move (keeps : Keeps holder base gpu bus) {move : Move} (respects : move.Respects base) :
    ∃ after, Keeps holder base after (bus.move holder move) ∧
      Passes gpu after (bus.exchange holder base move) ∧
      ((gpu.pending?.isSome → gpu.writeReady = false) →
        after.pending?.isSome → after.writeReady = false) := by
  cases move with
  | access operation =>
    obtain ⟨after, kept, serves⟩ := keeps.access respects
    exact ⟨after, kept, keeps.passes_access serves, serves.waiting⟩
  | step =>
    obtain ⟨after, kept, empty⟩ := keeps.step
    refine ⟨after, kept, ?_, fun _ waits => ?_⟩
    · rw [exchange, keeps.mail?_eq]
      exact .taken empty
    · rw [empty] at waits
      cases waits

/-- Any number of moves. What is exchanged is relayed, if a waiting mail closes the mailbox. -/
theorem moves (keeps : Keeps holder base gpu bus) {moves : List Move}
    (respects : ∀ move ∈ moves, move.Respects base) :
    ∃ after, Keeps holder base after (bus.moves holder moves) ∧
      ((gpu.pending?.isSome → gpu.writeReady = false) →
        (after.pending?.isSome → after.writeReady = false) ∧
          Relayed gpu.pending? (bus.exchanges holder base moves)) := by
  -- Both the shown flags and the closed mailbox are handed from move to move.
  induction moves generalizing gpu bus with
  | nil => exact ⟨gpu, keeps, fun waiting => ⟨waiting, .nil⟩⟩
  | cons move rest ih =>
    obtain ⟨respected, later⟩ := List.forall_mem_cons.mp respects
    obtain ⟨between, kept, passes, still⟩ := keeps.move respected
    obtain ⟨after, keptAfter, relays⟩ := ih kept later
    refine ⟨after, keptAfter, fun waiting => ?_⟩
    obtain ⟨last, relayed⟩ := relays (still waiting)
    refine ⟨last, ?_⟩
    rw [exchanges]
    generalize bus.exchange holder base move = exchanged at passes ⊢
    cases passes with
    | silent same =>
      rw [← same]
      exact relayed
    | posted ready latched =>
      -- The unit was ready, so that nothing can have been waiting.
      have empty : gpu.pending? = none := by
        cases held : gpu.pending? with
        | none => rfl
        | some mail =>
          rw [waiting (by simp [held])] at ready
          cases ready
      rw [latched] at relayed
      rw [empty]
      exact .posted relayed
    | taken empty =>
      rw [empty] at relayed
      exact .taken relayed

end Keeps

/-- What a program can rely on between any two moves. -/
structure Reliable (holder : Handle) (base : Word) (bus : Bus) (gpu : Gpu) : Prop where
  present : bus.gpu? holder = some gpu
  shows : ∃ status, bus.memory.readWord (base + Gpu.statusOffset) = .ok status ∧
    Bits.test status Gpu.emptyBit = !gpu.readReady ∧
    Bits.test status Gpu.fullBit = !gpu.writeReady
  /-- A tracked write to the write register latches the word that then stands there. -/
  latches : ∀ operation, (Move.access operation).Respects base → operation.posts base = true →
    bus.isFull base = false → (bus.access operation).1.isOk = true →
      ∃ mail, (bus.access operation).2.memory.readWord (base + Gpu.writeOffset) = .ok mail ∧
        (bus.access operation).2.mail? holder = some mail
  /-- While there is no room, no access changes what waits. -/
  ignores : ∀ operation, (Move.access operation).Respects base → bus.isFull base = true →
    (bus.access operation).2.mail? holder = bus.mail? holder
  /-- A step refuses the mail that waits, or answers on its channel. -/
  answers : ∀ mail, bus.mail? holder = some mail →
    (∃ fault, ((step holder).perform bus).1 = .error fault ∧
      gpu.allocate bus.memory mail = .error fault) ∨
    (((step holder).perform bus).1 = .ok () ∧
      ((step holder).perform bus).2.memory.readWord (base + Gpu.readOffset) =
        .ok (Gpu.channelOf mail))

theorem Keeps.reliable (keeps : Keeps holder base gpu bus) : Reliable holder base bus gpu where
  present := keeps.gpu?_eq
  shows := ⟨gpu.statusWord, keeps.publishes, Gpu.test_statusWord gpu⟩
  latches operation respects posts room succeeded := by
    obtain ⟨after, kept, serves⟩ := keeps.access respects
    have ready : gpu.writeReady = true := by simpa [keeps.isFull_eq] using room
    rw [kept.mail?_eq]
    exact serves.latches keeps.room posts ready succeeded
  ignores operation respects full := by
    obtain ⟨after, kept, serves⟩ := keeps.access respects
    have busy : gpu.writeReady = false := by simpa [keeps.isFull_eq] using full
    rw [kept.mail?_eq, keeps.mail?_eq]
    refine serves.keeps ?_
    rintro ⟨_, ready, _⟩
    rw [busy] at ready
    cases ready
  answers mail waits := by
    obtain ⟨after, _, steps⟩ := keeps.stepped
    rw [keeps.mail?_eq] at waits
    exact steps.answers waits

/-- Putting a unit to use makes its watch the only subscription and shows its flags. -/
theorem keeps_of_started {unused : Bus} {unit : Gpu} {started : Attachment}
    (present : unused.watchers[holder]? = some (.gpu unit))
    (placed : unit.mailboxBase? = some base) (alone : unused.registry.subscriptions = [])
    (room : Room base unused.memory)
    (initialized : (Machine.startAttachment ⟨holder, none⟩).perform unused = (.ok started, bus)) :
    Keeps holder base { unit with fixed := true, readReady := false, writeReady := true } bus := by
  obtain ⟨mailboxBase?, limit?, fixed, readReady, writeReady, pending?, frame?⟩ := unit
  obtain rfl : mailboxBase? = some base := placed
  let used : Gpu := ⟨some base, limit?, true, false, true, pending?, frame?⟩
  have usedPlaced : used.mailboxBase? = some base := rfl
  obtain ⟨written, published, shown, changes⟩ := room.exists_published usedPlaced
  rw [Machine.startAttachment] at initialized
  dsimp only at initialized
  rw [Action.perform_bind, start, Action.perform_ofFunction, present] at initialized
  dsimp only [Gpu.start, Gpu.mailboxBase, Gpu.framebufferEnd] at initialized
  cases limit? with
  | none =>
    -- Without an end for its framebuffers the unit would have been turned down.
    cases initialized
  | some limit =>
    dsimp only at initialized
    rw [published] at initialized
    cases initialized
    refine ⟨⟨present_setWatcher present _, rfl, ?_, room.of_changedIn changes⟩, shown⟩
    refine ⟨unused.registry.nextId, ?_⟩
    change unused.registry.subscriptions ++ [_] = _
    rw [alone]
    rfl

/--
A unit is put to use on a block of registers that lies in memory, and its watch is the only
subscription. Then program and unit may move in any order. What the program can rely on holds
after every move; and if no mail waited in the beginning, a waiting mail closes the mailbox, the
next thing to happen to a posted mail is that a step takes it, and no step takes anything else.
-/
theorem no_accepted_mail_is_lost {unused : Bus} {unit : Gpu} {started : Attachment}
    {moves : List Move} (present : unused.watchers[holder]? = some (.gpu unit))
    (placed : unit.mailboxBase? = some base) (alone : unused.registry.subscriptions = [])
    (room : Room base unused.memory)
    (initialized : (Machine.startAttachment ⟨holder, none⟩).perform unused = (.ok started, bus))
    (respects : ∀ move ∈ moves, move.Respects base) :
    (∃ gpu, Reliable holder base (bus.moves holder moves) gpu) ∧
    (unit.pending? = none →
      ((bus.moves holder moves).mail? holder ≠ none → (bus.moves holder moves).isFull base = true) ∧
      (∀ before mail after,
        bus.exchanges holder base moves = before ++ .posted mail :: after →
          after = [] ∨ ∃ later, after = .taken (some mail) :: later) ∧
      (∀ before mail after,
        bus.exchanges holder base moves = before ++ .taken (some mail) :: after →
          ∃ earlier, before = earlier ++ [.posted mail])) := by
  have keeps := keeps_of_started present placed alone room initialized
  obtain ⟨gpu, kept, relays⟩ := keeps.moves respects
  refine ⟨⟨gpu, kept.reliable⟩, fun empty => ?_⟩
  obtain ⟨closed, relayed⟩ := relays (by simp [empty])
  rw [kept.mail?_eq, kept.isFull_eq]
  refine ⟨fun waits => ?_, fun before mail after same => ?_, fun before mail after same => ?_⟩
  · rw [closed (Option.isSome_iff_ne_none.mpr waits)]
    rfl
  · rw [same] at relayed
    exact relayed.taken_of_posted
  · rw [same] at relayed
    rcases relayed.posted_of_taken with ⟨_, waited⟩ | posted
    · -- Nothing waited in the beginning.
      rw [empty] at waited
      cases waited
    · exact posted

def mailing : Bus :=
  { ofMemory (.blank 0x3000 4) with watchers := #[.gpu (.create (some 0x1000) (some 0x8000))] }

/-- A byte is posted, a word is written too early, a step takes the byte, another finds nothing. -/
def conversation : List Move :=
  [.access (.write .byte 0x1020 0x41 true), .access (.write .word 0x1020 0x2001 true), .step, .step]

/-- The byte is handed on as the word that it makes up. -/
theorem byte_posted_and_word_ignored :
    ∃ started bus, (Machine.startAttachment ⟨0, none⟩).perform mailing = (.ok started, bus) ∧
      bus.exchanges 0 0x1000 conversation = [.posted 0x41, .taken (some 0x41), .taken none] ∧
      (∃ gpu, Reliable 0 0x1000 (bus.moves 0 conversation) gpu) ∧
      (bus.moves 0 conversation).mail? 0 = none ∧
      (bus.moves 0 conversation).isFull 0x1000 = false := by
  let result := (Machine.startAttachment ⟨0, none⟩).perform mailing
  have initialized : (Machine.startAttachment ⟨0, none⟩).perform mailing =
    (.ok ⟨0, some [1]⟩, result.2) := rfl
  have room : Room 0x1000 mailing.memory := ⟨by decide, by decide⟩
  have respects : ∀ move ∈ conversation, move.Respects 0x1000 := by
    intro move member
    simp only [conversation, List.mem_cons, List.not_mem_nil, or_false] at member
    -- Both writes lie behind the status register.
    have behind (place : Nat) (inside : Register 0x1000 Gpu.statusOffset place) :
        ¬ 0x1020 ≤ place := by
      have below : place < 0x101C := inside.2
      omega
    rcases member with rfl | rfl | rfl | rfl
    · exact ⟨rfl, fun place inside writes => behind place inside writes.1⟩
    · exact ⟨rfl, fun place inside writes => behind place inside writes.1⟩
    · trivial
    · trivial
  obtain ⟨reliable, relays⟩ := no_accepted_mail_is_lost rfl rfl rfl room initialized respects
  have vacant : (result.2.moves 0 conversation).isFull 0x1000 = false := by decide +kernel
  have empty : (result.2.moves 0 conversation).mail? 0 = none := by
    cases waits : (result.2.moves 0 conversation).mail? 0 with
    | none => rfl
    | some mail =>
      have closed := (relays rfl).1 (by simp [waits])
      rw [vacant] at closed
      cases closed
  exact ⟨_, _, initialized, by decide +kernel, reliable, empty, vacant⟩

end Bus

end ArmBoard
