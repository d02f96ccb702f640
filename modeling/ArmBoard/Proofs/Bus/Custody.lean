import Mathlib.Data.List.Nodup
import ArmBoard.Bus.Peripherals
import ArmBoard.Proofs.Bus.Removal
import ArmBoard.Proofs.Execution.Conduct

/-!
# Custody of subscriptions

Whatever observers do in their reactions, and peripherals in their steps, a
registry changes in two ways only: subscriptions disappear, and new ones with
larger numbers are added behind the others. An account of the subscriptions of
one party can therefore be brought up to date by comparing the registry before
and after.
-/
namespace ArmBoard

namespace Registry

/-- Subscriptions stand in the order of their numbers, and the next number is larger than all. -/
structure Numbered (registry : Registry) : Prop where
  ascending : registry.subscriptions.Pairwise (·.id < ·.id)
  below : ∀ subscription ∈ registry.subscriptions, subscription.id < registry.nextId

theorem Grown.numbered {registry : Registry} (grown : registry.Grown) : registry.Numbered :=
  ⟨grown.orderly.ascending, grown.orderly.below⟩

theorem Numbered.eq_of_id_eq {registry : Registry} (numbered : registry.Numbered)
    {one other : Subscription} (member : one ∈ registry.subscriptions)
    (also : other ∈ registry.subscriptions) (same : one.id = other.id) : one = other := by
  have different : (registry.subscriptions.map (·.id)).Nodup :=
    List.pairwise_map.mpr (numbered.ascending.imp Nat.ne_of_lt)
  exact List.inj_on_of_nodup_map different member also same

/-- What has become of a registry by subscribing and unsubscribing. -/
structure Evolved (before after : Registry) : Prop where
  numbered : after.Numbered
  later : before.nextId ≤ after.nextId
  parts : ∃ keep new, after.subscriptions = before.subscriptions.filter keep ++ new ∧
    ∀ subscription ∈ new, before.nextId ≤ subscription.id

section Evolution

variable {before between after : Registry}

theorem Numbered.evolved (numbered : before.Numbered) : Evolved before before :=
  ⟨numbered, Nat.le_refl _, fun _ => true, [], by simp, nofun⟩

theorem Evolved.trans (first : Evolved before between) (second : Evolved between after) :
    Evolved before after := by
  obtain ⟨keep, new, parts, above⟩ := first.parts
  obtain ⟨keepLater, newer, partsLater, aboveLater⟩ := second.parts
  refine ⟨second.numbered, first.later.trans second.later,
    fun subscription => keepLater subscription && keep subscription,
    new.filter keepLater ++ newer, ?_, ?_⟩
  · rw [partsLater, parts, List.filter_append, List.filter_filter, List.append_assoc]
  · intro subscription member
    rcases List.mem_append.mp member with old | added
    · exact above subscription (List.mem_filter.mp old).1
    · exact first.later.trans (aboveLater subscription added)

theorem Numbered.evolved_insert (numbered : before.Numbered) (holder : Handle) (watch : Watch) :
    Evolved before (before.insert holder watch).2 := by
  refine ⟨⟨?_, ?_⟩, Nat.le_succ _, fun _ => true, [⟨before.nextId, watch, holder⟩], ?_, ?_⟩
  · refine List.pairwise_append.mpr ⟨numbered.ascending, List.pairwise_singleton _ _, ?_⟩
    intro old member new added
    rw [List.mem_singleton.mp added]
    exact numbered.below old member
  · intro subscription member
    rcases List.mem_append.mp member with old | new
    · exact Nat.lt_succ_of_lt (numbered.below subscription old)
    · rw [List.mem_singleton.mp new]
      exact Nat.lt_succ_self before.nextId
  · simp [insert]
  · simp

theorem Numbered.evolved_remove (numbered : before.Numbered) (id : Nat) :
    Evolved before (before.remove id).2 := by
  have fewer := subscriptions_remove numbered.ascending id
  refine ⟨⟨?_, ?_⟩, Nat.le_refl _, (·.id != id), [], ?_, nofun⟩
  · rw [fewer]
    exact numbered.ascending.filter _
  · intro subscription member
    exact numbered.below subscription (List.mem_of_mem_eraseP member)
  · rw [fewer, List.append_nil]

/--
By subscribing and unsubscribing one registry has become another. The numbers are those that were
returned to subscribers on the way, in this order.
-/
inductive HandsOut : Registry → List Nat → Registry → Prop
  | nothing (registry : Registry) : HandsOut registry [] registry
  | subscribed (registry : Registry) (holder : Handle) (watch : Watch) :
      HandsOut registry [(registry.insert holder watch).1] (registry.insert holder watch).2
  | unsubscribed (registry : Registry) (id : Nat) : HandsOut registry [] (registry.remove id).2
  | trans {before between after : Registry} {first second : List Nat}
      (earlier : HandsOut before first between) (later : HandsOut between second after) :
      HandsOut before (first ++ second) after

theorem HandsOut.evolved {numbers : List Nat} (handsOut : HandsOut before numbers after)
    (numbered : before.Numbered) : Evolved before after := by
  induction handsOut with
  | nothing => exact numbered.evolved
  | subscribed => exact numbered.evolved_insert _ _
  | unsubscribed => exact numbered.evolved_remove _
  | trans _ _ first second =>
    have evolved := first numbered
    exact evolved.trans (second evolved.numbered)

end Evolution

/--
The subscriptions of one party after a time in which nobody else has subscribed: those it had and
that are still there, and all that have been made since.
-/
def follow (before after : Registry) (held : List Subscription) : List Subscription :=
  held.filter (· ∈ after.subscriptions) ++
    after.subscriptions.filter fun subscription => before.nextId ≤ subscription.id

/-- The subscriptions of a registry that do not have one of the numbers. -/
def without (registry : Registry) (ids : List Nat) : List Subscription :=
  registry.subscriptions.filter (·.id ∉ ids)

/-- Who had all but the subscriptions of some numbers still has all but those. -/
theorem Evolved.follow_without {before after : Registry} (evolved : Evolved before after)
    (numbered : before.Numbered) {ids : List Nat} (old : ∀ id ∈ ids, id < before.nextId) :
    follow before after (before.without ids) = after.without ids := by
  obtain ⟨keep, new, parts, above⟩ := evolved.parts
  -- Of the old subscriptions those are left that were kept, and none of the new ones.
  have left : ∀ subscription ∈ before.subscriptions,
      (subscription ∈ after.subscriptions ↔ keep subscription = true) := by
    intro subscription member
    rw [parts, List.mem_append, List.mem_filter]
    constructor
    · rintro (⟨_, kept⟩ | added)
      · exact kept
      · have number := numbered.below subscription member
        have late := above subscription added
        omega
    · exact fun kept => Or.inl ⟨member, kept⟩
  have since : after.subscriptions.filter (fun subscription => before.nextId ≤ subscription.id) =
      new := by
    rw [parts, List.filter_append, List.filter_filter, List.filter_eq_nil_iff.mpr,
      List.filter_eq_self.mpr, List.nil_append]
    · simpa using above
    · intro subscription member
      have number := numbered.below subscription member
      simp only [Bool.and_eq_true, decide_eq_true_eq, not_and]
      omega
  have foreign : new.filter (·.id ∉ ids) = new := by
    refine List.filter_eq_self.mpr fun subscription added => ?_
    have late := above subscription added
    refine decide_eq_true fun member => ?_
    have early := old subscription.id member
    omega
  rw [follow, since, without, without, parts, List.filter_append, foreign, List.filter_filter,
    List.filter_filter]
  congr 1
  refine List.filter_congr fun subscription member => ?_
  rw [← parts, Bool.and_comm]
  congr 1
  exact Bool.eq_iff_iff.mpr (by simpa using left subscription member)

section Parties

variable {registry : Registry} {held : List Subscription}

/-- A party that subscribes has one subscription more, behind the others. -/
theorem Numbered.follow_insert (numbered : registry.Numbered)
    (present : ∀ subscription ∈ held, subscription ∈ registry.subscriptions) (holder : Handle)
    (watch : Watch) : registry.follow (registry.insert holder watch).2 held =
      held ++ [⟨registry.nextId, watch, holder⟩] := by
  have kept : held.filter (· ∈ (registry.insert holder watch).2.subscriptions) = held := by
    refine List.filter_eq_self.mpr fun subscription member => decide_eq_true ?_
    exact List.mem_append_left _ (present subscription member)
  have old : registry.subscriptions.filter
      (fun subscription => registry.nextId ≤ subscription.id) = [] := by
    refine List.filter_eq_nil_iff.mpr fun subscription member => ?_
    have number := numbered.below subscription member
    simpa using number
  rw [follow, kept, insert, List.filter_append, old]
  simp

/-- A party whose subscription may have been ended has all but that one. -/
theorem Numbered.follow_remove (numbered : registry.Numbered)
    (present : ∀ subscription ∈ held, subscription ∈ registry.subscriptions) (id : Nat) :
    registry.follow (registry.remove id).2 held = held.filter (·.id != id) := by
  have kept : held.filter (· ∈ (registry.remove id).2.subscriptions) =
      held.filter (·.id != id) := by
    refine List.filter_congr fun subscription member => ?_
    have left := mem_remove numbered.ascending id subscription
    exact Bool.eq_iff_iff.mpr (by simpa [left] using fun _ => present subscription member)
  have old : (registry.remove id).2.subscriptions.filter
      (fun subscription => registry.nextId ≤ subscription.id) = [] := by
    refine List.filter_eq_nil_iff.mpr fun subscription member => ?_
    have number := numbered.below subscription (List.mem_of_mem_eraseP member)
    simpa using number
  rw [follow, kept, old, List.append_nil]

end Parties

end Registry

namespace Bus

theorem handsOut_of_changes {operation : Operation} {bus after : Bus}
    (changes : Changes operation bus after) :
    ∃ numbers, bus.registry.HandsOut numbers after.registry := by
  cases changes with
  | nothing | stored => exact ⟨[], .nothing _⟩
  | subscribed => exact ⟨_, .subscribed _ _ _⟩
  | unsubscribed => exact ⟨[], .unsubscribed _ _⟩

def custody : Habit where
  permits _ := True
  keeps _ bus after := ∃ numbers, bus.registry.HandsOut numbers after.registry
  refl _ _ := ⟨[], .nothing _⟩
  trans := fun ⟨_, first⟩ ⟨_, second⟩ => ⟨_, first.trans second⟩
  operated _ _ := handsOut_of_changes
  performed := ⟨[], .nothing _⟩
  settled _ := ⟨trivial, [], .nothing _⟩
  unitHeard _ := ⟨trivial, [], .nothing _⟩
  timerHeard _ := ⟨[], .nothing _⟩
  called _ _ kept := kept

end Bus

/-- What a peripheral watches once it is put to use. -/
def Watcher.watches : Watcher → List Watch
  | .observer .. => []
  | .gpu unit => (unit.mailboxBase?.map Gpu.watch).toList
  | .timer counter => (counter.base?.map Timer.watch).toList

theorem Watcher.fit_of_mem_watches {watcher : Watcher} {watch : Watch}
    (own : watch ∈ watcher.watches) : watch.complaint? = none := by
  cases watcher with
  | observer => cases own
  | gpu gpu =>
    rw [watches, Option.mem_toList] at own
    obtain ⟨base, _, rfl⟩ := Option.map_eq_some_iff.mp own
    rfl
  | timer timer =>
    rw [watches, Option.mem_toList] at own
    obtain ⟨base, _, rfl⟩ := Option.map_eq_some_iff.mp own
    rfl

theorem Gpu.watches_of_start {gpu : Gpu} {memory : Memory} {watches : List Watch}
    (started : (gpu.start memory).1 = .ok watches) : watches = (Watcher.gpu gpu).watches := by
  cases placed : gpu.mailboxBase? with
  | none =>
    rw [start, mailboxBase, placed] at started
    cases started
  | some base =>
    have shown : gpu.mailboxBase = .ok base := by rw [mailboxBase, placed]
    rw [start, shown] at started
    rw [Watcher.watches, placed]
    split at started
    · cases started
    · cases started
    · next same _ =>
      cases same
      dsimp only at started
      split at started
      · cases started
      · cases started
        rfl

theorem Gpu.mailboxBase?_start (gpu : Gpu) (memory : Memory) :
    (gpu.start memory).2.1.mailboxBase? = gpu.mailboxBase? := by
  unfold start
  split
  · rfl
  · rfl
  · dsimp only
    split <;> rfl

theorem Gpu.mailboxBase?_allocate {gpu framed : Gpu} {memory written : Memory} {mail : Word}
    (allocated : gpu.allocate memory mail = .ok (framed, written)) :
    framed.mailboxBase? = gpu.mailboxBase? := by
  simp only [allocate, bind, Except.bind, pure, Except.pure] at allocated
  repeat' split at allocated
  all_goals cases allocated
  rfl

theorem Gpu.mailboxBase?_hear (gpu : Gpu) (memory : Memory) (touch : Touch) :
    (gpu.hear memory touch).1.mailboxBase? = gpu.mailboxBase? := by
  unfold hear
  split
  · rfl
  · dsimp only
    split
    · rfl
    · next changed heard =>
      -- A write latches a mail, a read takes the answer, and neither moves the block.
      have same : changed.mailboxBase? = gpu.mailboxBase? := by
        split at heard <;> grind
      split <;> exact same

theorem Timer.watches_of_start {timer : Timer} {now : Nat} {watches : List Watch}
    (started : (timer.start now).1 = .ok watches) :
    watches = (Watcher.timer timer).watches := by
  cases placed : timer.base? with
  | none =>
    rw [start, base, placed] at started
    cases started
  | some address =>
    rw [start, base, placed] at started
    cases started
    rw [Watcher.watches, placed]
    rfl

theorem Timer.base?_start (timer : Timer) (now : Nat) :
    (timer.start now).2.base? = timer.base? := by
  unfold start
  split <;> rfl

namespace Bus

/-- What the watcher of a handle watches, once it is put to use. -/
def watchesOf (bus : Bus) (holder : Handle) : List Watch :=
  (bus.watchers[holder]?.map (·.watches)).getD []

theorem watchesOf_of_present {bus : Bus} {holder : Handle} {watcher : Watcher}
    (present : bus.watchers[holder]? = some watcher) : bus.watchesOf holder = watcher.watches := by
  rw [watchesOf, present]
  rfl

theorem fit_of_mem_watchesOf {bus : Bus} {holder : Handle} :
    ∀ watch ∈ bus.watchesOf holder, watch.complaint? = none := by
  intro watch own
  rw [watchesOf] at own
  cases found : bus.watchers[holder]? with
  | none =>
    rw [found] at own
    cases own
  | some watcher =>
    rw [found] at own
    exact watcher.fit_of_mem_watches own

/-- Every watcher watches what it did. -/
def SameWatches (bus after : Bus) : Prop := ∀ holder, after.watchesOf holder = bus.watchesOf holder

section Watches

variable {bus after : Bus}

theorem sameWatches_of_eq (same : after.watchers = bus.watchers) : SameWatches bus after := by
  intro holder
  rw [watchesOf, same, watchesOf]

theorem sameWatches_setWatcher {holder : Handle} {watcher : Watcher}
    (same : watcher.watches = bus.watchesOf holder) :
    SameWatches bus (bus.setWatcher holder watcher) := by
  intro handle
  rw [watchesOf, setWatcher, Array.getElem?_setIfInBounds]
  split
  · next here =>
    subst here
    split
    · exact same
    · next outside =>
      -- Nobody is there, before and after.
      rw [watchesOf, Array.getElem?_eq_none (Nat.le_of_not_lt outside)]
  · rfl

theorem lasting_sameWatches : Lasting SameWatches where
  refl _ _ := rfl
  trans first second holder := (second holder).trans (first holder)
  operated changes := by cases changes <;> exact sameWatches_of_eq rfl
  noted _ _ := sameWatches_of_eq rfl
  settled present same := by
    -- An observer watches nothing of its own accord, whatever it keeps in mind.
    have idle := (same _).trans (watchesOf_of_present present)
    exact sameWatches_setWatcher idle.symm
  unitHeard {bus holder gpu} touch present := by
    have same : (Watcher.gpu (gpu.hear bus.memory touch).1).watches = bus.watchesOf holder := by
      rw [watchesOf_of_present present, Watcher.watches, Gpu.mailboxBase?_hear, Watcher.watches]
    exact sameWatches_setWatcher same
  timerHeard _ _ _ := sameWatches_of_eq rfl

end Watches

/--
What becomes of a bus by accesses and by the steps of peripherals: it stays staffed, its registry
changes by subscribing and unsubscribing, and every watcher watches what it did.
-/
structure Tended (bus after : Bus) : Prop where
  kept : bus.Staffed → custody.Kept [] bus after
  watches : SameWatches bus after

namespace Tended

variable {bus after : Bus}

theorem refl (bus : Bus) : Tended bus bus :=
  ⟨fun staffed => Habit.Governs.kept ⟨staffed, fun _ _ => trivial⟩ [], lasting_sameWatches.refl bus⟩

theorem trans {later : Bus} (first : Tended bus after) (second : Tended after later) :
    Tended bus later :=
  ⟨fun staffed => (first.kept staffed).trans (second.kept (first.kept staffed).governs.staffed),
    lasting_sameWatches.trans first.watches second.watches⟩

theorem withMemory (bus : Bus) (memory : Memory) : Tended bus { bus with memory } where
  kept staffed := ⟨⟨staffed.withMemory memory, fun _ _ => trivial⟩, rfl, [], .nothing _⟩
  watches := sameWatches_of_eq rfl

theorem setWatcher {holder : Handle} {watcher other : Watcher}
    (present : bus.watchers[holder]? = some watcher)
    (idle : ∀ operation, ¬ other.Performs operation)
    (same : other.watches = watcher.watches) : Tended bus (bus.setWatcher holder other) where
  kept staffed := ⟨⟨staffed.setWatcher holder fun operation performs =>
      absurd performs (idle operation), fun _ _ => trivial⟩,
    Array.size_setIfInBounds, [], .nothing _⟩
  watches := sameWatches_setWatcher (same.trans (watchesOf_of_present present).symm)

/-- Who is busy decides who is told, but not what becomes of the bus in this respect. -/
theorem report (busy : List Handle) (touch : Touch) (bus : Bus) :
    Tended bus (Bus.report busy touch bus) where
  kept staffed := by
    have kept := respects_report custody busy touch bus ⟨staffed, fun _ _ => trivial⟩
    exact ⟨kept.governs, kept.size, kept.keeps⟩
  watches := lasting_sameWatches.keeps_report busy touch bus

theorem perform {operation : Operation}
    (known : ∀ holder ∈ operation.holder?, holder < bus.watchers.size) :
    Tended bus ((Bus.perform (Bus.report []) operation).perform bus).2 where
  kept staffed := Habit.kept_of_perform (respects_report custody [])
    ⟨staffed, fun _ _ => trivial⟩ known handsOut_of_changes
  watches := lasting_sameWatches.keeps_perform (lasting_sameWatches.keeps_report []) operation bus

end Tended

section Tending

open ArmBoard.Action (Follows)

def tending : Conduct Bus where
  admits _ := True
  keeps := Tended
  refl := Tended.refl
  trans := Tended.trans

variable {bus : Bus}

theorem load_follows (busy : List Handle) (count : Nat) (address : Word) :
    (load (report busy) count address).Follows tending False := by
  refine .of_keeps (fun _ => trivial) fun bus => ?_
  rw [load, Action.perform_ofFunction]
  cases bus.memory.check address count with
  | error fault => exact Tended.refl bus
  | ok _ =>
    have announced := Tended.report busy ⟨.preRead, address, count⟩ bus
    dsimp only
    cases (report busy ⟨.preRead, address, count⟩ bus).memory.read count address with
    | error fault => exact announced
    | ok value => exact announced.trans (Tended.report busy _ _)

theorem store_follows (busy : List Handle) (count : Nat) (address : Word)
    (value : BitVec (8 * count)) :
    (store (report busy) count address value).Follows tending False := by
  refine .of_keeps (fun _ => trivial) fun bus => ?_
  rw [store, Action.perform_ofFunction]
  cases bus.memory.write count address value with
  | error fault => exact Tended.refl bus
  | ok memory => exact (Tended.withMemory bus memory).trans (Tended.report busy _ _)

theorem changeGpu_follows (holder : Handle) {update : Gpu → Gpu}
    (placed : ∀ gpu, (update gpu).mailboxBase? = gpu.mailboxBase?) :
    (changeGpu holder update).Follows tending False := by
  refine .change (Or.inr fun bus => ?_)
  split
  · next gpu present =>
    refine Tended.setWatcher present (Watcher.not_performs_gpu _) ?_
    rw [Watcher.watches, placed, Watcher.watches]
  · exact Tended.refl bus

/-- What follows the allocation of a framebuffer: the answer is shown, and the unit is ready. -/
def showAnswer (holder : Handle) (gpu : Gpu) (mail : Word) : Action Bus Unit := do
  let base ← Action.ask fun _ => gpu.mailboxBase
  store (report [holder]) 4 (base + Gpu.readOffset) (Gpu.channelOf mail)
  changeGpu holder fun gpu => { gpu with readReady := true, writeReady := true }
  Action.changeOr fun bus : Bus =>
    match bus.watchers[holder]? with
    | some (.gpu gpu) => (gpu.publishStatus bus.memory).map fun memory => { bus with memory }
    | _ => .ok bus

theorem showAnswer_follows (holder : Handle) (gpu : Gpu) (mail : Word) :
    (showAnswer holder gpu mail).Follows tending False := by
  refine .bind (.ask fun _ => trivial) fun base => ?_
  refine .bind (store_follows [holder] 4 _ _) fun _ => ?_
  refine .bind (changeGpu_follows holder fun _ => rfl) fun _ => ?_
  refine .changeOr (fun _ => trivial) (Or.inr ?_)
  intro bus next changed
  split at changed
  · next gpu _ =>
    cases written : gpu.publishStatus bus.memory with
    | error fault =>
      rw [written] at changed
      cases changed
    | ok memory =>
      rw [written] at changed
      cases changed
      exact Tended.withMemory bus memory
  · cases changed
    exact Tended.refl bus

theorem tended_of_answerMail {holder : Handle} {gpu unit : Gpu}
    (present : bus.watchers[holder]? = some (.gpu unit))
    (placed : gpu.mailboxBase? = unit.mailboxBase?) (mail : Word) :
    Tended bus ((answerMail holder gpu mail).perform bus).2 := by
  rw [answerMail, Action.perform_bind, Action.perform, Action.changeOr]
  cases answered : gpu.allocate bus.memory mail with
  | error fault => exact Tended.refl bus
  | ok result =>
    obtain ⟨framed, memory⟩ := result
    have allocated : Tended { bus with memory }
        ({ bus with memory }.setWatcher holder (.gpu framed)) := by
      refine Tended.setWatcher present (Watcher.not_performs_gpu _) ?_
      rw [Watcher.watches, Gpu.mailboxBase?_allocate answered, placed, Watcher.watches]
    refine ((Tended.withMemory bus memory).trans allocated).trans ?_
    exact (showAnswer_follows holder gpu mail).keeps _

theorem step_follows (holder : Handle) : (step holder).Follows tending False := by
  refine .of_keeps (fun _ => trivial) fun bus => ?_
  rw [step, Action.perform_ofFunction]
  split
  · next gpu present =>
    split
    · exact Tended.refl bus
    · next mail _ =>
      -- The mail is taken first, and then it is answered.
      have taken : Tended bus (bus.setWatcher holder (.gpu { gpu with pending? := none })) :=
        Tended.setWatcher present (Watcher.not_performs_gpu _) rfl
      exact taken.trans (tended_of_answerMail (present_setWatcher present _) rfl mail)
  · split
    · exact Tended.refl bus
    · exact Tended.withMemory bus _
  · exact Tended.refl bus

end Tending

/-- Putting a peripheral to use subscribes nobody; it asks for what it watches. -/
theorem start_cases (holder : Handle) (bus : Bus) :
    Tended bus ((start holder).perform bus).2 ∧
    ((start holder).perform bus).2.registry = bus.registry ∧
    ∀ watches, ((start holder).perform bus).1 = .ok watches →
      watches = bus.watchesOf holder ∧ (watches ≠ [] → holder < bus.watchers.size) := by
  rw [start, Action.perform_ofFunction]
  split
  · next gpu present =>
    obtain ⟨inside, _⟩ := Array.getElem?_eq_some_iff.mp present
    have idle := Watcher.not_performs_gpu (gpu.start bus.memory).2.1
    refine ⟨(Tended.withMemory bus _).trans (Tended.setWatcher present idle ?_), rfl,
      fun watches started => ⟨?_, fun _ => inside⟩⟩
    · rw [Watcher.watches, Gpu.mailboxBase?_start, Watcher.watches]
    · rw [Gpu.watches_of_start started, watchesOf_of_present present]
  · next timer present =>
    obtain ⟨inside, _⟩ := Array.getElem?_eq_some_iff.mp present
    refine ⟨Tended.setWatcher present (Watcher.not_performs_timer _) ?_, rfl,
      fun watches started => ⟨?_, fun _ => inside⟩⟩
    · rw [Watcher.watches, Timer.base?_start, Watcher.watches]
    · rw [Timer.watches_of_start started, watchesOf_of_present present]
  · next noUnit noCounter =>
    refine ⟨Tended.refl bus, rfl, fun watches started => ?_⟩
    cases started
    refine ⟨?_, fun watched => absurd rfl watched⟩
    rw [watchesOf]
    rcases found : bus.watchers[holder]? with _ | ⟨_ | unit | counter⟩
    · rfl
    · rfl
    · exact absurd found (noUnit unit)
    · exact absurd found (noCounter counter)

/-- Ending subscriptions one after the other leaves those that have none of the numbers. -/
theorem unobserve_all (ids : List Nat) {bus : Bus} (numbered : bus.registry.Numbered) :
    ids.foldl (fun bus id => (bus.unobserve id).2) bus =
      { bus with registry := ⟨bus.registry.nextId, bus.registry.without ids⟩ } := by
  induction ids generalizing bus with
  | nil => simp [Registry.without]
  | cons id rest ih =>
    have removed := (numbered.evolved_remove id).numbered
    -- What is left without the first and then without the others is left without all of them.
    have left : (bus.registry.remove id).2.without rest = bus.registry.without (id :: rest) := by
      rw [Registry.without, Registry.subscriptions_remove numbered.ascending, List.filter_filter,
        Registry.without]
      refine List.filter_congr fun subscription _ => ?_
      exact Bool.eq_iff_iff.mpr (by simp [and_comm])
    rw [List.foldl_cons, ih removed]
    simp only [unobserve, left]
    rfl

end Bus

end ArmBoard
