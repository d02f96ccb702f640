import Mathlib.Data.List.Basic
import Mathlib.Logic.Relation
import ArmBoard.Proofs.Machine.Ownership

/-!
# Subscriptions that are rolled back

A registry numbers its subscriptions, and whoever has a number can end the
subscription. When a kept state is brought back, the registry of then comes
with it, and so does its next number. A ledger is kept of the numbers that have
been handed out on the way to the present state, and of all that have ever been
handed out. The two tell when a number can be trusted to be nobody else's.
-/
namespace ArmBoard

namespace Registry

variable {before after registry : Registry} {numbers line : List Nat}

/-- The numbers between the next one of then and the next one of now. -/
def numbersUntil (before after : Registry) : List Nat :=
  List.range' before.nextId (after.nextId - before.nextId)

theorem HandsOut.eq_range' (handsOut : before.HandsOut numbers after) :
    numbers = List.range' before.nextId numbers.length ∧
      after.nextId = before.nextId + numbers.length := by
  induction handsOut with
  | nothing | unsubscribed => exact ⟨rfl, rfl⟩
  | subscribed => exact ⟨rfl, rfl⟩
  | trans _ _ earlier later =>
    obtain ⟨first, between⟩ := earlier
    obtain ⟨second, last⟩ := later
    rw [between] at second
    refine ⟨?_, ?_⟩
    · rw [List.length_append, ← List.range'_append_1, ← first, ← second]
    · rw [last, between, List.length_append, Nat.add_assoc]

/-- The numbers that were handed out can be told from the two registries. -/
theorem HandsOut.eq_numbersUntil (handsOut : before.HandsOut numbers after) :
    numbers = before.numbersUntil after := by
  obtain ⟨range, next⟩ := handsOut.eq_range'
  rw [numbersUntil, next, Nat.add_sub_cancel_left]
  exact range

/-- A registry whose numbers so far are those of a line, from one upwards. -/
structure Counts (registry : Registry) (line : List Nat) : Prop where
  numbered : registry.Numbered
  range : line = List.range' 1 line.length
  next : registry.nextId = line.length + 1
  listed : ∀ subscription ∈ registry.subscriptions, subscription.id ∈ line

namespace Counts

theorem mem_iff (counts : registry.Counts line) (number : Nat) :
    number ∈ line ↔ 1 ≤ number ∧ number < registry.nextId := by
  rw [counts.next, counts.range, List.length_range', List.mem_range'_1]
  omega

theorem empty : Registry.empty.Counts [] :=
  ⟨⟨.nil, nofun⟩, rfl, rfl, nofun⟩

theorem handsOut (counts : before.Counts line) (handsOut : before.HandsOut numbers after) :
    after.Counts (line ++ numbers) := by
  obtain ⟨range, next⟩ := handsOut.eq_range'
  have evolved := handsOut.evolved counts.numbered
  obtain ⟨keep, new, parts, above⟩ := evolved.parts
  rw [counts.next] at range
  refine ⟨evolved.numbered, ?_, ?_, ?_⟩
  · rw [List.length_append, ← List.range'_append_1, ← counts.range, Nat.add_comm 1, ← range]
  · rw [next, counts.next, List.length_append]
    omega
  · intro subscription member
    have below := evolved.numbered.below subscription member
    rw [parts] at member
    rcases List.mem_append.mp member with old | added
    · exact List.mem_append_left _ (counts.listed subscription (List.mem_filter.mp old).1)
    · -- What is new is numbered between the next number of then and that of now.
      have late := above subscription added
      rw [next] at below
      rw [counts.next] at below late
      refine List.mem_append_right _ ?_
      rw [range, List.mem_range'_1]
      omega

end Counts

/-- A number that was free stays free, unless it is handed out. -/
theorem HandsOut.gone (handsOut : before.HandsOut numbers after) (numbered : before.Numbered)
    {number : Nat} (unused : number < before.nextId ∨ number ∉ before.numbersUntil after)
    (gone : ∀ subscription ∈ before.subscriptions, subscription.id ≠ number) :
    ∀ subscription ∈ after.subscriptions, subscription.id ≠ number := by
  have evolved := handsOut.evolved numbered
  obtain ⟨keep, new, parts, above⟩ := evolved.parts
  intro subscription member
  have below := evolved.numbered.below subscription member
  -- New subscriptions have numbers that were handed out on the way, and old ones are not new.
  rw [parts] at member
  rcases List.mem_append.mp member with kept | added
  · exact gone subscription (List.mem_filter.mp kept).1
  · have late := above subscription added
    rw [numbersUntil, List.mem_range'_1] at unused
    omega

/-- Whoever ends the latest subscription brings back the subscriptions of before. -/
theorem Numbered.remove_insert (numbered : registry.Numbered) (holder : Handle) (watch : Watch) :
    ((registry.insert holder watch).2.remove registry.nextId).1 = true ∧
      ((registry.insert holder watch).2.remove registry.nextId).2.subscriptions =
        registry.subscriptions := by
  refine ⟨by simp [remove, insert], ?_⟩
  have others : registry.subscriptions.filter (·.id != registry.nextId) =
      registry.subscriptions := by
    refine List.filter_eq_self.mpr fun subscription member => ?_
    exact bne_iff_ne.mpr (Nat.ne_of_lt (numbered.below subscription member))
  rw [subscriptions_remove (numbered.evolved_insert holder watch).numbered.ascending, insert,
    List.filter_append, others]
  simp

end Registry

namespace Bus

variable {bus after : Bus}

/-- Nobody on the bus is lost, and the registry changes by subscribing and unsubscribing. -/
structure Grows (bus after : Bus) : Prop where
  staffed : after.Staffed
  size : bus.watchers.size ≤ after.watchers.size
  handsOut : ∃ numbers, bus.registry.HandsOut numbers after.registry

theorem Grows.refl (staffed : bus.Staffed) : Grows bus bus :=
  ⟨staffed, Nat.le_refl _, [], .nothing bus.registry⟩

theorem Grows.trans {later : Bus} (first : Grows bus after) (second : Grows after later) :
    Grows bus later := by
  obtain ⟨_, handsOut⟩ := first.handsOut
  obtain ⟨_, handsOutLater⟩ := second.handsOut
  exact ⟨second.staffed, first.size.trans second.size, _, handsOut.trans handsOutLater⟩

theorem Tended.grows (tended : Tended bus after) (staffed : bus.Staffed) : Grows bus after :=
  have kept := tended.kept staffed
  ⟨kept.governs.staffed, Nat.le_of_eq kept.size.symm, kept.keeps⟩

theorem Tended.unobserve_all (ids : List Nat) (bus : Bus) :
    Tended bus (ids.foldl (fun bus id => (bus.unobserve id).2) bus) := by
  induction ids generalizing bus with
  | nil => exact .refl bus
  | cons id rest ih =>
    have known : ∀ holder ∈ (Operation.unobserve id).holder?, holder < bus.watchers.size := nofun
    have ended : Tended bus (bus.unobserve id).2 := Tended.perform known
    exact ended.trans (ih _)

/-- Where no subscription has a number, ending it changes nothing. -/
theorem unobserve_of_gone {id : Nat}
    (gone : ∀ subscription ∈ bus.registry.subscriptions, subscription.id ≠ id) :
    bus.unobserve id = (false, bus) := by
  have unknown : bus.registry.subscriptions.any (·.id == id) = false := by
    simpa using gone
  have same : bus.registry.subscriptions.eraseP (·.id == id) = bus.registry.subscriptions :=
    List.eraseP_of_forall_not (by simpa using gone)
  rw [unobserve, Registry.remove, unknown, same]

end Bus

namespace Machine

def busTending : Conduct Machine where
  admits _ := True
  keeps machine reached := machine.bus.Tended reached.bus
  refl machine := .refl machine.bus
  trans := .trans

theorem onBusTending {action : Action Machine Unit} (follows : action.Follows tending False) :
    action.Follows busTending False :=
  .of_keeps (fun _ => trivial) fun machine => (follows.keeps machine).1

theorem putToUse_follows (index : Nat) (attachment : Attachment) :
    (putToUse index attachment).Follows busTending False := by
  refine .of_keeps (fun _ => trivial) fun machine => ?_
  cases used : attachment.subscriptions? with
  | some ids =>
    rw [perform_putToUse_some index used]
    exact .refl machine.bus
  | none =>
    obtain ⟨tended, _, own⟩ := Bus.start_cases attachment.holder machine.bus
    rw [perform_putToUse_none index used]
    rcases started : (Bus.start attachment.holder).perform machine.bus with ⟨fault | watches, bus⟩
    · rw [started] at tended
      exact tended
    · rw [started] at tended own
      dsimp only at tended
      -- Whoever watches something was on the bus before, and nobody has left it.
      refine ⟨fun staffed => ?_, tended.watches⟩
      have kept := tended.kept staffed
      have known : watches ≠ [] → attachment.holder < bus.watchers.size := fun watched =>
        kept.size ▸ (own watches rfl).2 watched
      exact kept.trans ((Bus.Tended.issued known).kept kept.governs.staffed)

/-- Peripherals are put to use and take a step, and an instruction is executed. -/
theorem cycle_follows : cycle.Follows busTending False := by
  rw [cycle_eq]
  refine .bind (follows_stepPeripherals fun index attachment => ?_) fun _ =>
    onBusTending executeNext_follows
  rw [stepAttachment_eq]
  refine .bind (putToUse_follows index attachment) fun _ => ?_
  exact onBusTending (onBus_follows (Bus.step_follows attachment.holder))

/-- What can happen to a machine, a return to an earlier state apart. -/
inductive Onward (machine : Machine) : Machine → Prop
  | cycled : machine.Onward (cycle.perform machine).2
  /-- The host observes or unobserves, or makes an access that observers hear of. -/
  | operated {operation : Operation}
      (known : ∀ holder ∈ operation.holder?, holder < machine.bus.watchers.size) :
      machine.Onward ((onBus (Bus.perform (Bus.report []) operation)).perform machine).2
  | attached (holder : Handle) : machine.Onward (machine.attach holder)
  | detached : machine.Onward machine.detach
  /-- Observers are created, peripherals are placed, registers are set, time passes. -/
  | edited {after : Machine} (registry : after.bus.registry = machine.bus.registry)
      (size : machine.bus.watchers.size ≤ after.bus.watchers.size)
      (staffed : after.bus.Staffed) : machine.Onward after

theorem Onward.grows {machine after : Machine} (onward : machine.Onward after)
    (staffed : machine.bus.Staffed) : machine.bus.Grows after.bus := by
  cases onward with
  | cycled => exact (cycle_follows.keeps machine).grows staffed
  | operated known => exact (Bus.Tended.perform known).grows staffed
  | attached => exact (Bus.Tended.refl machine.bus).grows staffed
  | detached => exact (Bus.Tended.unobserve_all _ machine.bus).grows staffed
  | edited registry size remains =>
    refine ⟨remains, size, [], ?_⟩
    rw [registry]
    exact .nothing machine.bus.registry

theorem grows_of_onward {machine later : Machine}
    (onward : Relation.ReflTransGen Onward machine later) (staffed : machine.bus.Staffed) :
    machine.bus.Grows later.bus := by
  induction onward with
  | refl => exact .refl staffed
  | tail _ step ih => exact ih.trans (step.grows ih.staffed)

end Machine

/-- A state of a machine that has been kept, and the numbers handed out on the way to it. -/
structure Keepsake where
  snapshot : Snapshot
  line : List Nat

/-- A machine and an account of the numbers of its subscriptions. -/
structure Ledger where
  machine : Machine
  /-- The numbers handed out on the way to the present state, in their order. -/
  line : List Nat
  /-- All numbers that have ever been handed out. -/
  handed : List Nat
  kept : List Keepsake

namespace Ledger

def new (memory : Memory) : Ledger := ⟨.ofMemory memory, [], [], []⟩

/-- The machine goes on, and hands out numbers while it does. -/
def goOn (after : Machine) (ledger : Ledger) : Ledger :=
  let numbers := ledger.machine.bus.registry.numbersUntil after.bus.registry
  { ledger with
    machine := after
    line := ledger.line ++ numbers
    handed := ledger.handed ++ numbers }

def keep (ledger : Ledger) : Ledger :=
  { ledger with kept := ledger.kept ++ [⟨ledger.machine.snapshot, ledger.line⟩] }

/-- A kept state is brought back. What has been handed out since stays in the hands it is in. -/
def restore (keepsake : Keepsake) (ledger : Ledger) : Ledger :=
  { ledger with machine := ledger.machine.restore keepsake.snapshot, line := keepsake.line }

/-- What may happen to a machine that begins with an empty bus. -/
inductive History (memory : Memory) : Ledger → Prop
  | new : History memory (.new memory)
  | onward {ledger : Ledger} (history : History memory ledger) {after : Machine}
      (onward : ledger.machine.Onward after) : History memory (ledger.goOn after)
  | kept {ledger : Ledger} (history : History memory ledger) : History memory ledger.keep
  | restored {ledger : Ledger} (history : History memory ledger) {keepsake : Keepsake}
      (member : keepsake ∈ ledger.kept) : History memory (ledger.restore keepsake)

/-- The ledger is right about the machine and about the states that were kept. -/
structure Sound (ledger : Ledger) : Prop where
  staffed : ledger.machine.bus.Staffed
  counts : ledger.machine.bus.registry.Counts ledger.line
  subset : ledger.line ⊆ ledger.handed
  /-- The numbers that were handed out have no gaps. -/
  gapless : ∀ number ∈ ledger.handed,
    1 ≤ number ∧ ∀ smaller, 1 ≤ smaller → smaller ≤ number → smaller ∈ ledger.handed
  keptCounts : ∀ keepsake ∈ ledger.kept, keepsake.snapshot.registry.Counts keepsake.line
  keptSubset : ∀ keepsake ∈ ledger.kept, keepsake.line ⊆ ledger.handed
  keptHeld : ∀ keepsake ∈ ledger.kept, ∀ subscription ∈ keepsake.snapshot.registry.subscriptions,
    subscription.holder < ledger.machine.bus.watchers.size

namespace Sound

variable {ledger : Ledger}

theorem new (memory : Memory) : Sound (.new memory) where
  staffed := ⟨nofun, fun _ member => absurd member (Array.not_mem_empty _)⟩
  counts := .empty
  subset := List.Subset.refl []
  gapless := nofun
  keptCounts := nofun
  keptSubset := nofun
  keptHeld := nofun

theorem goOn (sound : Sound ledger) {after : Machine}
    (grows : ledger.machine.bus.Grows after.bus) : Sound (ledger.goOn after) := by
  obtain ⟨staffed, size, numbers, handsOut⟩ := grows
  have counts := sound.counts.handsOut handsOut
  rw [handsOut.eq_numbersUntil] at counts
  refine ⟨staffed, counts, ?_, ?_, sound.keptCounts, ?_, ?_⟩
  · exact List.append_subset.mpr ⟨List.subset_append_of_subset_left _ sound.subset,
      List.subset_append_right _ _⟩
  · intro number member
    rcases List.mem_append.mp member with former | fresh
    · obtain ⟨positive, smaller⟩ := sound.gapless number former
      exact ⟨positive, fun other one below => List.mem_append_left _ (smaller other one below)⟩
    · have next := sound.counts.next
      rw [Registry.numbersUntil, List.mem_range'_1] at fresh
      refine ⟨by omega, fun other one below => ?_⟩
      -- What is smaller is on the line already or handed out just before.
      by_cases onLine : other < ledger.machine.bus.registry.nextId
      · exact List.mem_append_left _ (sound.subset ((sound.counts.mem_iff other).mpr ⟨one, onLine⟩))
      · refine List.mem_append_right _ ?_
        rw [Registry.numbersUntil, List.mem_range'_1]
        omega
  · exact fun keepsake member =>
      List.subset_append_of_subset_left _ (sound.keptSubset keepsake member)
  · exact fun keepsake member subscription held =>
      Nat.lt_of_lt_of_le (sound.keptHeld keepsake member subscription held) size

theorem keep (sound : Sound ledger) : Sound ledger.keep := by
  refine ⟨sound.staffed, sound.counts, sound.subset, sound.gapless, ?_, ?_, ?_⟩
  all_goals
    intro keepsake member
    rcases List.mem_append.mp member with old | new
  · exact sound.keptCounts keepsake old
  · rw [List.mem_singleton.mp new]
    exact sound.counts
  · exact sound.keptSubset keepsake old
  · rw [List.mem_singleton.mp new]
    exact sound.subset
  · exact sound.keptHeld keepsake old
  · rw [List.mem_singleton.mp new]
    exact sound.staffed.held

theorem restore (sound : Sound ledger) {keepsake : Keepsake} (member : keepsake ∈ ledger.kept) :
    Sound (ledger.restore keepsake) :=
  -- The watchers stay those of now, among which are the holders of then.
  ⟨⟨sound.keptHeld keepsake member, sound.staffed.reactions⟩, sound.keptCounts keepsake member,
    sound.keptSubset keepsake member, sound.gapless, sound.keptCounts, sound.keptSubset,
    sound.keptHeld⟩

/-- A number that is not on the line has been lost, and the next one is not larger. -/
theorem lost_iff (sound : Sound ledger) {number : Nat} (former : number ∈ ledger.handed) :
    number ∉ ledger.line ↔ ledger.machine.bus.registry.nextId ≤ number := by
  have positive := (sound.gapless number former).1
  rw [sound.counts.mem_iff]
  omega

theorem next_larger_iff (sound : Sound ledger) :
    (∀ former ∈ ledger.handed, former < ledger.machine.bus.registry.nextId) ↔
      ledger.handed ⊆ ledger.line := by
  refine forall₂_congr fun former member => ?_
  rw [← not_iff_not, sound.lost_iff member, Nat.not_lt]

theorem next_mem_handed_iff (sound : Sound ledger) :
    ledger.machine.bus.registry.nextId ∈ ledger.handed ↔ ¬ ledger.handed ⊆ ledger.line := by
  constructor
  · intro again known
    exact Nat.lt_irrefl _ (((sound.counts.mem_iff _).mp (known again)).2)
  · intro lost
    rw [← sound.next_larger_iff] at lost
    push Not at lost
    obtain ⟨number, former, late⟩ := lost
    -- A number that was lost is not below the next one, and up to it there are no gaps.
    have positive : 1 ≤ ledger.machine.bus.registry.nextId := by
      rw [sound.counts.next]
      exact Nat.le_add_left 1 _
    exact (sound.gapless number former).2 _ positive late

end Sound

theorem History.sound {memory : Memory} {ledger : Ledger} (history : History memory ledger) :
    Sound ledger := by
  induction history with
  | new => exact .new memory
  | onward _ onward ih => exact ih.goOn (onward.grows ih.staffed)
  | kept _ ih => exact ih.keep
  | restored _ member ih => exact ih.restore member

/--
Whatever happens to a machine from its creation: the numbers handed out on the way to the present
state are the first ones in their order, every subscription that is left has one of them, and each
has been returned to a subscriber. A new subscription gets a larger one than all of these. It is
larger than all that have ever been handed out if and only if none of those has been rolled back;
otherwise somebody has it already, and with it can end the new subscription. A number whose
subscription is gone ends nothing as long as the machine goes on and does not hand it out again,
which it can do only with one that was rolled back.
-/
theorem numbers_return_exactly_after_a_rollback {memory : Memory} {ledger : Ledger}
    (history : History memory ledger) :
    ledger.line = List.range' 1 ledger.line.length ∧
    (∀ subscription ∈ ledger.machine.bus.registry.subscriptions, subscription.id ∈ ledger.line) ∧
    (∀ after, ledger.machine.Onward after →
      ledger.machine.bus.registry.HandsOut
        (ledger.machine.bus.registry.numbersUntil after.bus.registry) after.bus.registry) ∧
    (∀ holder watch, watch.complaint? = none → ∃ number after,
      (Bus.observe holder watch).perform ledger.machine.bus = (.ok number, after) ∧
      (∀ former ∈ ledger.line, former < number) ∧
      ((∀ former ∈ ledger.handed, former < number) ↔ ledger.handed ⊆ ledger.line) ∧
      (number ∈ ledger.handed ↔ ¬ ledger.handed ⊆ ledger.line) ∧
      (after.unobserve number).1 = true ∧
      (after.unobserve number).2.registry.subscriptions =
        ledger.machine.bus.registry.subscriptions) ∧
    ∀ number, (∀ subscription ∈ ledger.machine.bus.registry.subscriptions,
        subscription.id ≠ number) →
      ∀ later, Relation.ReflTransGen Machine.Onward ledger.machine later →
        number ∈ ledger.line ∨
          number ∉ ledger.machine.bus.registry.numbersUntil later.bus.registry →
        later.bus.unobserve number = (false, later.bus) := by
  have sound := history.sound
  have onLine := sound.counts.mem_iff
  refine ⟨sound.counts.range, sound.counts.listed, ?_, ?_, ?_⟩
  · intro after onward
    obtain ⟨numbers, handsOut⟩ := (onward.grows sound.staffed).handsOut
    rw [← handsOut.eq_numbersUntil]
    exact handsOut
  · intro holder watch fit
    have subscribed := Bus.perform_observe fit holder ledger.machine.bus
    obtain ⟨known, left⟩ := sound.counts.numbered.remove_insert holder watch
    exact ⟨_, _, subscribed, fun former member => ((onLine former).mp member).2,
      sound.next_larger_iff, sound.next_mem_handed_iff, known, left⟩
  · intro number gone later onward unused
    obtain ⟨numbers, handsOut⟩ := (Machine.grows_of_onward onward sound.staffed).handsOut
    refine Bus.unobserve_of_gone (handsOut.gone sound.counts.numbered ?_ gone)
    exact unused.imp_left fun member => ((onLine number).mp member).2

/-- The first bytes, whenever they are written. -/
def firstWord : Watch := ⟨0, 4, .ofList [.write]⟩

def subscribed (holder : Handle) (ledger : Ledger) : Ledger :=
  ledger.goOn ((Machine.onBus (Bus.perform (Bus.report [])
    (.observe holder firstWord))).perform ledger.machine).2

theorem History.subscribed {memory : Memory} {ledger : Ledger} (history : History memory ledger)
    {holder : Handle} (known : holder < ledger.machine.bus.watchers.size) :
    History memory (ledger.subscribed holder) :=
  history.onward (.operated (by simpa [Operation.holder?] using known))

/-- A machine with a timer and an observer, neither of which is subscribed. -/
def peopled : Ledger := (new (.blank 64 4)).goOn Account.untouched

theorem history_peopled : History (.blank 64 4) peopled :=
  .onward .new (.edited rfl (by decide) Account.staffed_untouched)

/-- The observer is subscribed, the timer is attached, and the state is kept. -/
def prepared : Ledger :=
  let subscribed := peopled.subscribed 1
  (subscribed.goOn (subscribed.machine.attach 0)).keep

/-- After a cycle, in which the timer is put to use, the kept state is brought back. -/
def reverted : Ledger :=
  (prepared.goOn (Machine.cycle.perform prepared.machine).2).restore
    ⟨prepared.machine.snapshot, prepared.line⟩

theorem history_reverted : History (.blank 64 4) reverted :=
  have prepared := .kept (.onward (history_peopled.subscribed (by decide)) (.attached 0))
  .restored (.onward prepared .cycled) List.mem_cons_self

/-- The timer has had the second number. It is nobody's now, and the next observer's then. -/
theorem second_number_passes_to_an_observer :
    reverted.line = [1] ∧ reverted.handed = [1, 2] ∧
    reverted.machine.bus.unobserve 2 = (false, reverted.machine.bus) ∧
    ∃ number after,
      (Bus.observe 1 firstWord).perform reverted.machine.bus = (.ok number, after) ∧
      number ∈ reverted.handed ∧ (after.unobserve number).1 = true := by
  obtain ⟨_, _, _, observes, ends⟩ := numbers_return_exactly_after_a_rollback history_reverted
  obtain ⟨number, after, subscribed, _, _, again, known, _⟩ := observes 1 firstWord rfl
  have line : reverted.line = [1] := rfl
  have handed : reverted.handed = [1, 2] := rfl
  refine ⟨line, handed, ?_, number, after, subscribed, again.mpr ?_, known⟩
  · exact ends 2 (by decide) _ .refl (Or.inr (by decide))
  · rw [line, handed]
    decide

/-- The observer is subscribed, and then a state is brought back in which it was not. -/
def undone : Ledger :=
  (peopled.keep.subscribed 1).restore ⟨peopled.machine.snapshot, peopled.line⟩

theorem history_undone : History (.blank 64 4) undone :=
  .restored ((History.kept history_peopled).subscribed (by decide)) List.mem_cons_self

/-- A number that was rolled back is handed out again, and ends the subscription that has it. -/
theorem rolled_back_number_ends_another_subscription :
    (¬ ∀ memory ledger, History memory ledger → ledger.handed.length < 0xFFFFFFFFFFFFFFFF →
      ∀ holder watch number after,
        (Bus.observe holder watch).perform ledger.machine.bus = (.ok number, after) →
        ∀ former ∈ ledger.handed, former < number) ∧
    ¬ ∀ memory ledger, History memory ledger → ledger.handed.length < 0xFFFFFFFFFFFFFFFF →
      ∀ number ∈ ledger.handed, number ∉ ledger.line →
        ∀ after, ledger.machine.Onward after → (after.bus.unobserve number).1 = false := by
  have handed : undone.handed = [1] := rfl
  have few : undone.handed.length < 0xFFFFFFFFFFFFFFFF := by
    rw [handed]
    decide
  have once : 1 ∈ undone.handed := handed ▸ List.mem_cons_self
  refine ⟨fun larger => ?_, fun ends => ?_⟩
  · have again := larger _ undone history_undone few 1 firstWord 1 _ rfl 1 once
    exact Nat.lt_irrefl 1 again
  · have lost : 1 ∉ undone.line := List.not_mem_nil
    have known : ∀ holder ∈ (Operation.observe 1 firstWord).holder?,
        holder < undone.machine.bus.watchers.size := by decide
    have nothing := ends _ undone history_undone few 1 once lost _ (.operated known)
    cases nothing

end Ledger

end ArmBoard
