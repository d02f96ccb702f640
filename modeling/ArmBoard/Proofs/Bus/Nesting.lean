import Mathlib.Data.List.Perm.Subperm
import Mathlib.Data.List.Range
import ArmBoard.Proofs.Bus.Habit

/-!
# Nested reports

A report lets observers react, whose accesses are reported in turn, to other
observers and with other subscriptions than before. Nothing in the algorithm
bounds this recursion but the observers themselves: one that is busy is passed
over. So the observers that are busy at the same time are all different, there
are never more of them than there are observers, and the recursion ends.
-/
namespace ArmBoard

/-- Different watchers of a bus that has a given number of them. -/
structure Different (count : Nat) (holders : List Handle) : Prop where
  nodup : holders.Nodup
  known : ∀ holder ∈ holders, holder < count

namespace Different

variable {count : Nat} {holders : List Handle} {holder : Handle}

theorem subperm (different : Different count holders) : holders.Subperm (List.range count) :=
  different.nodup.subperm fun holder member => List.mem_range.mpr (different.known holder member)

theorem length_le (different : Different count holders) : holders.length ≤ count := by
  have bound := different.subperm.length_le
  rwa [List.length_range] at bound

/-- When as many are listed as there are, nobody is left out. -/
theorem mem_of_full (different : Different count holders) (full : count ≤ holders.length)
    (known : holder < count) : holder ∈ holders := by
  have all : holders.Perm (List.range count) := by
    refine different.subperm.perm_of_length_le ?_
    rwa [List.length_range]
  exact all.mem_iff.mpr (List.mem_range.mpr known)

theorem cons (different : Different count holders) (idle : holder ∉ holders)
    (known : holder < count) : Different count (holder :: holders) where
  nodup := List.nodup_cons.mpr ⟨idle, different.nodup⟩
  known := List.forall_mem_cons.mpr ⟨known, different.known⟩

end Different

namespace Bus

/--
The observers whose reactions have begun and not ended, the latest one first, as a journal tells
it. There is no answer if some reaction ends before one that began after it.
-/
def running : List Handle → List Entry → Option (List Handle)
  | stack, [] => some stack
  | stack, .entered _ holder _ :: rest => running (holder :: stack) rest
  | stack, .performed _ _ :: rest => running stack rest
  | latest :: stack, .left holder :: rest => if latest = holder then running stack rest else none
  | [], .left _ :: _ => none

theorem running_append (stack : List Handle) (first second : List Entry) :
    running stack (first ++ second) = (running stack first).bind (running · second) := by
  induction first generalizing stack with
  | nil => rfl
  | cons entry rest ih =>
    cases entry with
    | entered id holder touch => exact ih (holder :: stack)
    | performed holder reply => exact ih stack
    | left holder =>
      cases stack with
      | nil => rfl
      | cons latest stack =>
        rw [List.cons_append, running, running]
        split
        · exact ih stack
        · rfl

/-- Reactions that begin and end in turn, each of an observer that is not busy at that moment. -/
inductive Nested (count : Nat) : List Handle → List Entry → Prop
  | nil {busy : List Handle} : Nested count busy []
  | performed {busy : List Handle} {holder : Handle} {reply : Except Fault Reply}
      {rest : List Entry} (later : Nested count busy rest) :
      Nested count busy (.performed holder reply :: rest)
  | called {busy : List Handle} {id : Nat} {holder : Handle} {touch : Touch}
      {inner rest : List Entry} (idle : holder ∉ busy) (known : holder < count)
      (inside : Nested count (holder :: busy) inner) (later : Nested count busy rest) :
      Nested count busy (.entered id holder touch :: inner ++ .left holder :: rest)

namespace Nested

variable {count : Nat} {busy : List Handle} {first second entries : List Entry}

theorem append (before : Nested count busy first) (after : Nested count busy second) :
    Nested count busy (first ++ second) := by
  induction before with
  | nil => exact after
  | performed _ ih => exact .performed (ih after)
  | called idle known inside _ _ ih =>
    rw [List.cons_append, List.cons_append, List.append_assoc, List.cons_append]
    exact .called idle known inside (ih after)

/-- In the end the same observers are busy as in the beginning. -/
theorem running_eq (nested : Nested count busy entries) (stack : List Handle) :
    running stack entries = some stack := by
  induction nested generalizing stack with
  | nil => rfl
  | performed _ ih => exact ih stack
  | @called busy id holder touch inner rest _ _ _ _ inside later =>
    rw [List.cons_append, running, running_append, inside (holder :: stack), Option.bind_some,
      running, if_pos rfl]
    exact later stack

/-- At any moment the busy observers are different ones. -/
theorem running_of_prefix (nested : Nested count busy entries) (different : Different count busy)
    {before : List Entry} (earlier : before <+: entries) :
    ∃ stack, running busy before = some stack ∧ Different count stack := by
  induction nested generalizing before with
  | nil =>
    obtain rfl := List.prefix_nil.mp earlier
    exact ⟨_, rfl, different⟩
  | performed _ ih =>
    rcases List.prefix_cons_iff.mp earlier with rfl | ⟨taken, rfl, sooner⟩
    · exact ⟨_, rfl, different⟩
    · rw [running]
      exact ih different sooner
  | @called busy id holder touch inner rest idle known inside _ ihInside ihLater =>
    have entered := different.cons idle known
    rcases List.prefix_cons_iff.mp earlier with rfl | ⟨taken, rfl, sooner⟩
    · exact ⟨_, rfl, different⟩
    rw [running]
    -- The moment lies in the reaction, or behind it.
    rcases List.prefix_or_prefix_of_prefix sooner (List.prefix_append inner _) with
      within | ⟨beyond, rfl⟩
    · exact ihInside entered within
    · have outside : beyond <+: .left holder :: rest := (List.prefix_append_right_inj inner).mp sooner
      rw [running_append, inside.running_eq, Option.bind_some]
      rcases List.prefix_cons_iff.mp outside with rfl | ⟨taken, rfl, last⟩
      · exact ⟨_, rfl, entered⟩
      · rw [running, if_pos rfl]
        exact ihLater different last

end Nested

/-- The journal has grown by reactions in turn, and no watcher has joined or left the bus. -/
structure Nests (busy : List Handle) (bus after : Bus) : Prop where
  size : after.watchers.size = bus.watchers.size
  journal : ∃ entries, after.journal.toList = bus.journal.toList ++ entries ∧
    Nested bus.watchers.size busy entries

namespace Nests

variable {busy : List Handle} {bus after later : Bus}

theorem of_silence (size : after.watchers.size = bus.watchers.size)
    (journal : after.journal = bus.journal) : Nests busy bus after :=
  ⟨size, [], by rw [journal, List.append_nil], .nil⟩

theorem of_changes {operation : Operation} (changes : Changes operation bus after) :
    Nests busy bus after := by
  cases changes <;> exact of_silence rfl rfl

theorem trans (first : Nests busy bus after) (second : Nests busy after later) :
    Nests busy bus later := by
  obtain ⟨size, before, journal, nested⟩ := first
  obtain ⟨sizeLater, behind, journalLater, nestedLater⟩ := second
  refine ⟨sizeLater.trans size, before ++ behind, ?_, ?_⟩
  · rw [journalLater, journal, List.append_assoc]
  · rw [size] at nestedLater
    exact nested.append nestedLater

/-- A reaction lies between its beginning and its end. -/
theorem journal_called {holder : Handle} {id : Nat} {touch : Touch}
    (reacted : Nests (holder :: busy) (bus.note (.entered id holder touch)) after) :
    ∃ inner, Nested bus.watchers.size (holder :: busy) inner ∧
      (after.note (.left holder)).journal.toList =
        bus.journal.toList ++ (.entered id holder touch :: inner ++ [.left holder]) := by
  obtain ⟨_, inner, journal, nested⟩ := reacted
  refine ⟨inner, nested, ?_⟩
  simp only [note, Array.toList_push] at journal ⊢
  rw [journal, List.append_assoc, List.append_assoc]
  rfl

theorem called {holder : Handle} {id : Nat} {touch : Touch} (idle : holder ∉ busy)
    (known : holder < bus.watchers.size)
    (reacted : Nests (holder :: busy) (bus.note (.entered id holder touch)) after) :
    Nests busy bus (after.note (.left holder)) := by
  obtain ⟨inner, nested, journal⟩ := reacted.journal_called
  exact ⟨reacted.size, _, journal, .called idle known nested .nil⟩

end Nests

def nesting : Habit where
  permits _ := True
  keeps := Nests
  refl _ _ := .of_silence rfl rfl
  trans := .trans
  operated _ _ := .of_changes
  performed := ⟨rfl, [_], Array.toList_push, .performed .nil⟩
  settled _ := ⟨trivial, .of_silence Array.size_setIfInBounds rfl⟩
  unitHeard _ := ⟨trivial, .of_silence Array.size_setIfInBounds rfl⟩
  timerHeard _ := .of_silence rfl rfl
  called := .called

/-- A habit without demands. What it leaves to say is that the bus stays staffed. -/
def Habit.idle : Habit where
  permits _ := True
  keeps _ _ _ := True
  refl _ _ := trivial
  trans _ _ := trivial
  operated _ _ _ := trivial
  performed := trivial
  settled _ := ⟨trivial, trivial⟩
  unitHeard _ := ⟨trivial, trivial⟩
  timerHeard _ := trivial
  called _ _ _ := trivial

theorem Staffed.governs {bus : Bus} (staffed : bus.Staffed) : Habit.idle.Governs bus :=
  ⟨staffed, fun _ _ => trivial⟩

/-- Two reporters do the same on every staffed bus with a given number of watchers. -/
def Agree (count : Nat) (first second : Reporter) : Prop :=
  ∀ touch bus, bus.Staffed → bus.watchers.size = count → first touch bus = second touch bus

section Agreement

variable {count : Nat} {first second : Reporter} {busy : List Handle} {bus : Bus}

theorem perform_congr (agree : Agree count first second) (respects : Habit.idle.Respects busy first)
    (staffed : bus.Staffed) (size : bus.watchers.size = count) (operation : Operation) :
    (perform first operation).perform bus = (perform second operation).perform bus := by
  -- Only tracked accesses are reported.
  cases operation with
  | read width address tracked =>
    cases tracked with
    | false => rfl
    | true =>
      simp only [perform, Action.perform_bind, load, Action.perform_ofFunction]
      cases bus.memory.check address width.bytes with
      | error fault => rfl
      | ok _ =>
        have announced := respects ⟨.preRead, address, width.bytes⟩ bus staffed.governs
        dsimp only
        -- They agree on the announcement, and then on the bus that it leaves.
        rw [← agree _ bus staffed size]
        cases (first ⟨.preRead, address, width.bytes⟩ bus).memory.read width.bytes address with
        | error fault => rfl
        | ok value =>
          dsimp only
          rw [agree _ _ announced.governs.staffed (announced.size.trans size)]
  | write width address value tracked =>
    cases tracked with
    | false => rfl
    | true =>
      simp only [perform, Action.perform_bind, store, Action.perform_ofFunction]
      cases bus.memory.write width.bytes address value with
      | error fault => rfl
      | ok memory =>
        dsimp only
        rw [agree _ _ (staffed.withMemory memory) size]
  | addWord | putChunk | chunk | pages | extent | observe | unobserve => rfl

theorem follow_congr (agree : Agree count first second)
    (respects : Habit.idle.Respects busy first) (holder : Handle) {reaction : Reaction}
    (staffed : bus.Staffed) (size : bus.watchers.size = count)
    (known : ∀ operation, reaction.Performs operation →
      ∀ holder ∈ operation.holder?, holder < count) :
    bus.follow first holder reaction = bus.follow second holder reaction := by
  induction reaction generalizing bus with
  | finish kept => rfl
  | operate operation next ih =>
    have kept : Habit.idle.Kept busy bus ((perform first operation).perform bus).2 :=
      Habit.kept_of_perform respects staffed.governs (size ▸ known operation .now) fun _ => trivial
    rw [follow, follow, ← perform_congr agree respects staffed size]
    -- So far the replies are the same, and therefore what the observer does next.
    exact ih _ (kept.governs.staffed.note _) (kept.size.trans size)
      fun other later => known other (.later _ later)

theorem notify_congr (agree : Agree count first second) (respects : Habit.idle.Respects busy first)
    (staffed : bus.Staffed) (size : bus.watchers.size = count) (subscription : Nat)
    (holder : Handle) (touch : Touch) :
    bus.notify first subscription holder touch = bus.notify second subscription holder touch := by
  unfold notify
  split
  · rfl
  · next before notified present =>
    rw [follow_congr agree respects holder staffed size fun operation performs => ?_]
    rw [← size]
    exact staffed.reactions _ (Array.mem_of_getElem? present) operation
      ⟨before, subscription, touch, performs⟩
  · rfl
  · rfl

theorem deliver_congr (agree : Agree count first second) (respects : Habit.idle.Respects busy first)
    (staffed : bus.Staffed) (size : bus.watchers.size = count) (subscription : Subscription)
    (touch : Touch) : bus.deliver first subscription touch = bus.deliver second subscription touch := by
  rw [deliver, deliver, notify_congr agree respects (staffed.note _) size]

end Agreement

/-- One round of the recursion: reports of nested accesses are left to `next`. -/
def tell (next : List Handle → Reporter) (busy : List Handle) : Reporter := fun touch bus =>
  (bus.registry.hearing touch).foldl
    (fun bus subscription =>
      if busy.contains subscription.holder then bus
      else bus.deliver (next (subscription.holder :: busy)) subscription touch)
    bus

/-- The recursion without a bound, unfolded a number of times. Anything can be at its bottom. -/
def unfolded (bottom : List Handle → Reporter) : Nat → List Handle → Reporter
  | 0 => bottom
  | count + 1 => tell (unfolded bottom count)

theorem unfolded_add (bottom : List Handle → Reporter) (first second : Nat) :
    unfolded bottom (second + first) = unfolded (unfolded bottom second) first := by
  induction first with
  | zero => rfl
  | succ first ih => exact congrArg tell ih

section Recursion

variable {count : Nat} {busy : List Handle} {first second : List Handle → Reporter}

theorem agree_tell
    (respects : ∀ holder ∉ busy, Habit.idle.Respects (holder :: busy) (first (holder :: busy)))
    (agree : ∀ holder ∉ busy, holder < count →
      Agree count (first (holder :: busy)) (second (holder :: busy))) :
    Agree count (tell first busy) (tell second busy) := by
  intro touch bus staffed size
  have known : ∀ subscription ∈ bus.registry.hearing touch, subscription.holder < count :=
    fun subscription member => size ▸ staffed.held subscription (List.mem_filter.mp member).1
  rw [tell, tell]
  generalize bus.registry.hearing touch = told at known
  induction told generalizing bus with
  | nil => rfl
  | cons subscription rest ih =>
    obtain ⟨here, later⟩ := List.forall_mem_cons.mp known
    rw [List.foldl_cons, List.foldl_cons]
    split
    · exact ih bus staffed size later
    · next idle =>
      rw [List.contains_iff_mem] at idle
      -- Only of an observer that is idle are the nested reports asked to agree.
      rw [← deliver_congr (agree _ idle here) (respects _ idle) staffed size subscription touch]
      have kept := Habit.kept_of_deliver (respects _ idle) staffed.governs idle (size ▸ here) touch
      exact ih _ kept.governs.staffed (kept.size.trans size) later

/-- When all observers are busy, nobody is told. -/
theorem tell_of_full (different : Different count busy) (full : count ≤ busy.length)
    (next : List Handle → Reporter) {bus : Bus} (staffed : bus.Staffed)
    (size : bus.watchers.size = count) (touch : Touch) : tell next busy touch bus = bus := by
  have known : ∀ subscription ∈ bus.registry.hearing touch, subscription.holder ∈ busy :=
    fun subscription member => different.mem_of_full full
      (size ▸ staffed.held subscription (List.mem_filter.mp member).1)
  rw [tell]
  generalize bus.registry.hearing touch = told at known
  induction told with
  | nil => rfl
  | cons subscription rest ih =>
    obtain ⟨here, later⟩ := List.forall_mem_cons.mp known
    rw [List.foldl_cons, if_pos (List.contains_iff_mem.mpr here)]
    exact ih later

/-- Levels for all observers that are not busy, and one more, never come to the bottom. -/
theorem agree_reportWithin (bottom : List Handle → Reporter) {level : Nat}
    (different : Different count busy) (enough : count ≤ level + busy.length) :
    Agree count (reportWithin level busy) (unfolded bottom (level + 1) busy) := by
  induction level generalizing busy with
  | zero =>
    intro touch bus staffed size
    rw [Nat.zero_add] at enough
    exact (tell_of_full different enough bottom staffed size touch).symm
  | succ level ih =>
    refine agree_tell (fun holder _ => Habit.respects_reportWithin _ _ _) fun holder idle known => ?_
    -- One level less, one busy observer more.
    refine ih (different.cons idle known) ?_
    rw [List.length_cons]
    omega

theorem agree_report (bottom : List Handle → Reporter) {levels : Nat} (enough : count < levels)
    (different : Different count busy) : Agree count (report busy) (unfolded bottom levels busy) := by
  intro touch bus staffed size
  -- Unfoldings beyond the number of observers become part of the bottom, which may be anything.
  obtain ⟨more, rfl⟩ := Nat.exists_eq_add_of_lt enough
  rw [show count + more + 1 = more + (count + 1) by omega, unfolded_add, report, size]
  exact agree_reportWithin _ different (Nat.le_add_right _ _) touch bus staffed size

theorem respects_report (habit : Habit) (busy : List Handle) : habit.Respects busy (report busy) :=
  fun touch bus governs => habit.respects_reportWithin bus.watchers.size busy touch bus governs

/-- The report solves the recursion. -/
theorem report_eq_tell (different : Different count busy) :
    Agree count (report busy) (tell report busy) := by
  intro touch bus staffed size
  -- Both agree with the recursion unfolded far enough.
  let bottom : List Handle → Reporter := fun _ _ bus => bus
  have outer := agree_report bottom (show count < count + 2 by omega) different touch bus staffed size
  have inner : Agree count (tell report busy) (unfolded bottom (count + 2) busy) := by
    refine agree_tell (fun holder _ => respects_report _ _) fun holder idle known => ?_
    exact agree_report bottom (Nat.lt_succ_self count) (different.cons idle known)
  exact outer.trans (inner touch bus staffed size).symm

end Recursion

/--
An operation on a bus on which some observers are busy ends: unfolding the recursion of reports
more often than there are observers never comes to its bottom. From its beginning to its end the
reactions are well nested, no observer begins one while it is busy, and so there are never more
reactions under way than observers.
-/
theorem reports_return_and_never_reenter {bus : Bus} (staffed : bus.Staffed) {busy : List Handle}
    (different : Different bus.watchers.size busy) {operation : Operation}
    (known : ∀ holder ∈ operation.holder?, holder < bus.watchers.size) :
    (∀ bottom levels, bus.watchers.size < levels →
      (perform (unfolded bottom levels busy) operation).perform bus =
        (perform (report busy) operation).perform bus) ∧
    ∃ entries,
      ((perform (report busy) operation).perform bus).2.journal.toList =
        bus.journal.toList ++ entries ∧
      running busy entries = some busy ∧
      ∀ before, before <+: entries → ∃ stack, running busy before = some stack ∧
        stack.Nodup ∧ stack.length ≤ bus.watchers.size := by
  constructor
  · intro bottom levels enough
    exact (perform_congr (agree_report bottom enough different) (respects_report _ busy) staffed rfl
      operation).symm
  · have kept : nesting.Kept busy bus ((perform (report busy) operation).perform bus).2 :=
      Habit.kept_of_perform (respects_report nesting busy) ⟨staffed, fun _ _ => trivial⟩ known
        .of_changes
    obtain ⟨_, entries, journal, nested⟩ := kept.keeps
    refine ⟨entries, journal, nested.running_eq busy, fun before earlier => ?_⟩
    obtain ⟨stack, runs, moment⟩ := nested.running_of_prefix different earlier
    exact ⟨stack, runs, moment.nodup, moment.length_le⟩

/-- Two observers of one byte, each of which writes it again whenever it is written. -/
def echoing : Bus where
  memory := .blank 16 4
  registry := ⟨3, [⟨1, ⟨0, 1, .ofList [.write]⟩, 0⟩, ⟨2, ⟨0, 1, .ofList [.write]⟩, 1⟩]⟩
  watchers :=
    #[.script [(.write, .write .byte 0 7 true)], .script [(.write, .write .byte 0 9 true)]]
  now := 0
  journal := #[]

/-- Each of them answers the other once, and the access returns. -/
theorem echo_dies_away :
    (∀ bottom levels, 2 < levels →
      (perform (unfolded bottom levels []) (.write .byte 0 1 true)).perform echoing =
        (perform (report []) (.write .byte 0 1 true)).perform echoing) ∧
    ∃ entries,
      ((perform (report []) (.write .byte 0 1 true)).perform echoing).2.journal.toList =
        [] ++ entries ∧
      running [] entries = some [] ∧
      ∀ before, before <+: entries → ∃ stack, running [] before = some stack ∧
        stack.Nodup ∧ stack.length ≤ 2 :=
  have held : ∀ subscription ∈ echoing.registry.subscriptions, subscription.holder < 2 := by decide
  have reactions : ∀ watcher ∈ echoing.watchers, ∀ operation, watcher.Performs operation →
      ∀ holder ∈ operation.holder?, holder < 2 := by
    simp [echoing, Operation.holder?]
  reports_return_and_never_reenter ⟨held, reactions⟩ ⟨List.nodup_nil, nofun⟩ nofun

end Bus

end ArmBoard
