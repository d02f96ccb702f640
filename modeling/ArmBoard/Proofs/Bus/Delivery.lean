import ArmBoard.Proofs.Bus.Nesting

/-!
# Delivery of reports

A tracked access is the plain access with reports around it. Each report goes
to the subscriptions whose window shares a byte with the access, one after the
other by their numbers. What this comes to is settled by the registry alone, as
long as observers do not subscribe while they react. They may very well write
the memory that is being accessed.
-/
namespace ArmBoard

open Memory (Within)

/-- Window and access share a byte; their addresses are numbers without a bound. -/
def Watch.Meets (watch : Watch) (touch : Touch) : Prop :=
  ∃ place, Within watch.address.toNat watch.length.toNat place ∧
    Within touch.address.toNat touch.length place

namespace Watch

variable {watch : Watch} {touch : Touch}

theorem overlaps_iff_meets (window : 0 < watch.length.toNat) (access : 0 < touch.length) :
    watch.overlaps touch = true ↔ watch.Meets touch := by
  simp only [overlaps, Bool.and_eq_true, decide_eq_true_eq, Meets, Within]
  constructor
  · rintro ⟨below, above⟩
    -- The later of the two beginnings lies in both.
    refine ⟨max watch.address.toNat touch.address.toNat, ?_, ?_⟩ <;> omega
  · rintro ⟨place, watched, accessed⟩
    omega

theorem length_pos (fit : watch.complaint? = none) : 0 < watch.length.toNat := by
  apply Nat.pos_of_ne_zero
  intro empty
  have zero : watch.length = 0 := BitVec.eq_of_toNat_eq empty
  simp [complaint?, zero] at fit

end Watch

namespace Registry

/-- The subscriptions have come about by subscribing and unsubscribing. -/
inductive Grown : Registry → Prop
  | empty : Grown .empty
  | insert {registry : Registry} {holder : Handle} {watch : Watch} (grown : Grown registry)
      (fit : watch.complaint? = none) : Grown (registry.insert holder watch).2
  | remove {registry : Registry} {id : Nat} (grown : Grown registry) :
      Grown (registry.remove id).2

/-- Subscriptions stand in the order of their numbers, and no window is empty. -/
structure Orderly (registry : Registry) : Prop where
  ascending : registry.subscriptions.Pairwise (·.id < ·.id)
  below : ∀ subscription ∈ registry.subscriptions, subscription.id < registry.nextId
  window : ∀ subscription ∈ registry.subscriptions, 0 < subscription.watch.length.toNat

theorem orderly_insert {registry : Registry} (orderly : registry.Orderly) (holder : Handle)
    {watch : Watch} (fit : watch.complaint? = none) : (registry.insert holder watch).2.Orderly where
  ascending := by
    refine List.pairwise_append.mpr ⟨orderly.ascending, List.pairwise_singleton _ _, ?_⟩
    intro old member new added
    rw [List.mem_singleton.mp added]
    exact orderly.below old member
  below := by
    intro subscription member
    rcases List.mem_append.mp member with old | new
    · exact Nat.lt_succ_of_lt (orderly.below subscription old)
    · rw [List.mem_singleton.mp new]
      exact Nat.lt_succ_self registry.nextId
  window := by
    intro subscription member
    rcases List.mem_append.mp member with old | new
    · exact orderly.window subscription old
    · rw [List.mem_singleton.mp new]
      exact Watch.length_pos fit

theorem orderly_remove {registry : Registry} (orderly : registry.Orderly) (id : Nat) :
    (registry.remove id).2.Orderly := by
  have fewer : (registry.remove id).2.subscriptions.Sublist registry.subscriptions :=
    List.eraseP_sublist
  constructor
  · exact orderly.ascending.sublist fewer
  · intro subscription member
    exact orderly.below subscription (fewer.subset member)
  · intro subscription member
    exact orderly.window subscription (fewer.subset member)

theorem Grown.orderly {registry : Registry} (grown : registry.Grown) : registry.Orderly := by
  induction grown with
  | empty => exact ⟨.nil, nofun, nofun⟩
  | insert _ fit ih => exact orderly_insert ih _ fit
  | remove _ ih => exact orderly_remove ih _

/-- The subscriptions that an access concerns, once each and by their numbers. -/
structure Concerned (registry : Registry) (touch : Touch) (told : List Subscription) : Prop where
  ascending : told.Pairwise (·.id < ·.id)
  mem_iff : ∀ subscription, subscription ∈ told ↔ subscription ∈ registry.subscriptions ∧
    subscription.watch.events.contains touch.event = true ∧ subscription.watch.Meets touch

theorem Grown.concerned_hearing {registry : Registry} (grown : registry.Grown) {touch : Touch}
    (access : 0 < touch.length) : registry.Concerned touch (registry.hearing touch) := by
  have orderly := grown.orderly
  constructor
  · exact orderly.ascending.filter _
  · intro subscription
    rw [hearing, List.mem_filter, Watch.hears, Bool.and_eq_true]
    constructor
    · rintro ⟨member, asked, overlaps⟩
      have window := orderly.window subscription member
      exact ⟨member, asked, (Watch.overlaps_iff_meets window access).mp overlaps⟩
    · rintro ⟨member, asked, meets⟩
      have window := orderly.window subscription member
      exact ⟨member, asked, (Watch.overlaps_iff_meets window access).mpr meets⟩

end Registry

section Peripherals

variable {memory : Memory}

theorem Gpu.size_publishStatus {gpu : Gpu} {written : Memory}
    (published : gpu.publishStatus memory = .ok written) : written.size = memory.size := by
  cases placed : gpu.mailboxBase with
  | error fault =>
    rw [publishStatus, placed] at published
    cases published
  | ok base =>
    rw [publishStatus, placed] at published
    exact (Memory.changedIn_of_write published).size

theorem Gpu.size_hear (gpu : Gpu) (touch : Touch) :
    (gpu.hear memory touch).2.size = memory.size := by
  unfold hear
  split
  · rfl
  · dsimp only
    split
    · rfl
    · split
      · next published => exact size_publishStatus published
      · rfl

theorem Timer.size_hear (timer : Timer) (now : Nat) (touch : Touch) :
    (timer.hear now memory touch).size = memory.size := by
  unfold hear
  split
  · split
    · next written refreshed =>
      cases placed : timer.base with
      | error fault =>
        rw [refresh, placed] at refreshed
        cases refreshed
      | ok base =>
        rw [refresh, placed] at refreshed
        exact (Memory.changedIn_of_write refreshed).size
    · rfl
  · rfl

end Peripherals

namespace Bus

/-- No observer changes the size of memory, whoever else reacts to what it does. -/
theorem lasting_size : Lasting fun bus after => after.memory.size = bus.memory.size where
  refl _ := rfl
  trans first second := second.trans first
  operated changes := by
    cases changes with
    | stored _ changes => exact changes.size
    | nothing | subscribed | unsubscribed => rfl
  noted _ _ := rfl
  settled _ _ := rfl
  unitHeard touch _ := Gpu.size_hear _ touch
  timerHeard bus timer touch := timer.size_hear bus.now touch

theorem size_report (busy : List Handle) (touch : Touch) (bus : Bus) :
    (report busy touch bus).memory.size = bus.memory.size :=
  lasting_size.keeps_report busy touch bus

/-- Observers that neither subscribe nor unsubscribe leave the registry and the size of memory. -/
def loyalty : Habit where
  permits watcher := ∀ operation, watcher.Performs operation → operation.isAccess = true
  keeps _ bus after := after.registry = bus.registry ∧ after.memory.size = bus.memory.size
  refl _ _ := ⟨rfl, rfl⟩
  trans first second := ⟨second.1.trans first.1, second.2.trans first.2⟩
  operated permitted performs changes := by
    have access := permitted _ performs
    cases changes with
    | nothing => exact ⟨rfl, rfl⟩
    | stored _ changes => exact ⟨rfl, changes.size⟩
    | subscribed subscribes =>
      rw [subscribes] at access
      cases access
    | unsubscribed unsubscribes =>
      rw [unsubscribes] at access
      cases access
  performed := ⟨rfl, rfl⟩
  settled permitted := ⟨permitted, rfl, rfl⟩
  unitHeard _ := ⟨nofun, rfl, Gpu.size_hear _ _⟩
  timerHeard _ := ⟨rfl, Timer.size_hear _ _ _⟩
  called _ _ kept := kept

/-- Observers that store nothing leave memory alone. Peripherals store their registers. -/
def restraint : Habit where
  permits watcher := (∃ kept notified, watcher = .observer kept notified) ∧
    ∀ operation, watcher.Performs operation → operation.isWrite = false
  keeps _ bus after := after.memory = bus.memory
  refl _ _ := rfl
  trans first second := second.trans first
  operated permitted performs changes := by
    have read := permitted.2 _ performs
    cases changes with
    | nothing | subscribed | unsubscribed => rfl
    | stored stores =>
      rw [stores] at read
      cases read
  performed := rfl
  settled permitted := ⟨⟨⟨_, _, rfl⟩, permitted.2⟩, rfl⟩
  unitHeard permitted := by
    obtain ⟨⟨_, _, observer⟩, _⟩ := permitted
    cases observer
  timerHeard permitted := by
    obtain ⟨⟨_, _, observer⟩, _⟩ := permitted
    cases observer
  called _ _ kept := kept

/-- The calls that no other call surrounds, where some calls are under way in the beginning. -/
def outermost : Nat → List Entry → List (Nat × Touch)
  | _, [] => []
  | 0, .entered id _ touch :: rest => (id, touch) :: outermost 1 rest
  | depth + 1, .entered _ _ _ :: rest => outermost (depth + 2) rest
  | depth, .performed _ _ :: rest => outermost depth rest
  | depth, .left _ :: rest => outermost (depth - 1) rest

/-- What happens inside a call is nested in it. -/
theorem Nested.outermost_append {count : Nat} {busy : List Handle} {inner : List Entry}
    (nested : Nested count busy inner) (depth : Nat) (rest : List Entry) :
    outermost (depth + 1) (inner ++ rest) = outermost (depth + 1) rest := by
  induction nested generalizing depth rest with
  | nil => rfl
  | performed _ ih => exact ih depth rest
  | @called busy id holder touch inner later _ _ _ _ ihInside ihLater =>
    calc outermost (depth + 1) (.entered id holder touch :: inner ++ .left holder :: later ++ rest)
        = outermost (depth + 2) (inner ++ (.left holder :: later ++ rest)) := by
          rw [List.cons_append, List.cons_append, outermost, List.append_assoc]
      _ = outermost (depth + 2) (.left holder :: later ++ rest) := ihInside (depth + 1) _
      _ = outermost (depth + 1) (later ++ rest) := rfl
      _ = outermost (depth + 1) rest := ihLater depth rest

/-- Tells subscriptions of an access in turn, none of whose holders is busy. -/
def deliverAll (touch : Touch) (told : List Subscription) (bus : Bus) : Bus :=
  told.foldl (fun bus subscription =>
    bus.deliver (report [subscription.holder]) subscription touch) bus

section Delivery

variable {bus : Bus} {touch : Touch}

theorem report_eq_deliverAll (staffed : bus.Staffed) (touch : Touch) :
    report [] touch bus = deliverAll touch (bus.registry.hearing touch) bus :=
  report_eq_tell ⟨List.nodup_nil, nofun⟩ touch bus staffed rfl

/-- The journal shows a call for each subscription, in the same order. -/
theorem journal_deliverAll (staffed : bus.Staffed) {told : List Subscription}
    (known : ∀ subscription ∈ told, subscription.holder < bus.watchers.size) :
    ∃ entries, (deliverAll touch told bus).journal.toList = bus.journal.toList ++ entries ∧
      outermost 0 entries = told.map fun subscription => (subscription.id, touch) := by
  induction told generalizing bus with
  | nil => exact ⟨[], (List.append_nil _).symm, rfl⟩
  | cons subscription rest ih =>
    obtain ⟨here, later⟩ := List.forall_mem_cons.mp known
    have governs : nesting.Governs bus := ⟨staffed, fun _ _ => trivial⟩
    have respects := respects_report nesting [subscription.holder]
    have entered := governs.note (.entered subscription.id subscription.holder touch)
    have reacted :=
      Habit.kept_of_notify respects entered subscription.id subscription.holder touch
    have delivered := Habit.kept_of_deliver respects governs List.not_mem_nil here touch
    -- What is nested in the first call is not outermost, and the rest begins behind it.
    obtain ⟨inner, nested, journal⟩ := Nests.journal_called reacted.keeps
    obtain ⟨behind, journalLater, shown⟩ := ih delivered.governs.staffed (delivered.size ▸ later)
    refine ⟨.entered subscription.id subscription.holder touch :: inner ++
      [.left subscription.holder] ++ behind, ?_, ?_⟩
    · rw [← List.append_assoc, ← journal]
      exact journalLater
    · rw [List.cons_append, List.cons_append, outermost, List.append_assoc,
        nested.outermost_append 0, List.map_cons, ← shown]
      rfl

/--
The subscriptions that an access concerns are told of it, and each of them is told when the
reaction of the one before it is over.
-/
def Delivers (registry : Registry) (touch : Touch) (bus after : Bus) : Prop :=
  ∃ told, registry.Concerned touch told ∧ after = deliverAll touch told bus ∧
    ∃ entries, after.journal.toList = bus.journal.toList ++ entries ∧
      outermost 0 entries = told.map fun subscription => (subscription.id, touch)

theorem delivers_report (staffed : bus.Staffed) (grown : bus.registry.Grown)
    (access : 0 < touch.length) : Delivers bus.registry touch bus (report [] touch bus) := by
  have known : ∀ subscription ∈ bus.registry.hearing touch,
      subscription.holder < bus.watchers.size := by
    intro subscription member
    exact staffed.held subscription (List.mem_filter.mp member).1
  have told := report_eq_deliverAll staffed touch
  refine ⟨bus.registry.hearing touch, grown.concerned_hearing access, told, ?_⟩
  rw [told]
  exact journal_deliverAll staffed known

end Delivery

section Access

variable {bus : Bus} {width : Width} {address : Word} {value : BitVec (8 * width.bytes)}

theorem load_beyond (beyond : bus.memory.size < address.toNat + width.bytes) :
    ∃ fault, bus.memory.read width.bytes address = .error fault ∧
      (load (report []) width.bytes address).perform bus = (.error fault, bus) := by
  obtain ⟨fault, refused⟩ := Memory.check_eq_error beyond
  refine ⟨fault, ?_, ?_⟩
  · rw [Memory.read, refused]
  · rw [load, Action.perform_ofFunction, refused]

theorem store_beyond (beyond : bus.memory.size < address.toNat + width.bytes) :
    ∃ fault, bus.memory.write width.bytes address value = .error fault ∧
      (store (report []) width.bytes address value).perform bus = (.error fault, bus) := by
  obtain ⟨fault, refused⟩ := Memory.check_eq_error beyond
  have stopped : bus.memory.write width.bytes address value = .error fault := by
    rw [Memory.write, refused]
  refine ⟨fault, stopped, ?_⟩
  rw [store, Action.perform_ofFunction, stopped]

/-- The value is read on the bus as its announcement has left it. -/
theorem load_inside (governs : loyalty.Governs bus)
    (inside : address.toNat + width.bytes ≤ bus.memory.size) :
    ∃ value, (report [] ⟨.preRead, address, width.bytes⟩ bus).memory.read width.bytes address =
        .ok value ∧
      (load (report []) width.bytes address).perform bus =
        (.ok value, report [] ⟨.read, address, width.bytes⟩
          (report [] ⟨.preRead, address, width.bytes⟩ bus)) := by
  -- Observers may change the bytes in between, but not how many there are.
  have announced := respects_report loyalty [] ⟨.preRead, address, width.bytes⟩ bus governs
  have still := announced.keeps.2 ▸ inside
  obtain ⟨value, found⟩ := Memory.exists_read_eq_ok still
  refine ⟨value, found, ?_⟩
  rw [load, Action.perform_ofFunction, Memory.check_eq_ok inside]
  dsimp only
  rw [found]

theorem store_inside (inside : address.toNat + width.bytes ≤ bus.memory.size) :
    ∃ memory, bus.memory.write width.bytes address value = .ok memory ∧
      (store (report []) width.bytes address value).perform bus =
        (.ok (), report [] ⟨.write, address, width.bytes⟩ { bus with memory }) := by
  obtain ⟨memory, stored⟩ := Memory.exists_write_eq_ok inside value
  refine ⟨memory, stored, ?_⟩
  rw [store, Action.perform_ofFunction, stored]

/-- To observers that store nothing, a tracked read is a plain one. -/
theorem load_unstored (governs : restraint.Governs bus) :
    ((load (report []) width.bytes address).perform bus).1 = bus.memory.read width.bytes address ∧
      ((load (report []) width.bytes address).perform bus).2.memory = bus.memory := by
  rw [load, Action.perform_ofFunction]
  cases checked : bus.memory.check address width.bytes with
  | error fault =>
    refine ⟨?_, rfl⟩
    rw [Memory.read, checked]
  | ok _ =>
    have announced := respects_report restraint [] ⟨.preRead, address, width.bytes⟩ bus governs
    have unchanged : (report [] ⟨.preRead, address, width.bytes⟩ bus).memory = bus.memory :=
      announced.keeps
    dsimp only
    rw [unchanged]
    cases bus.memory.read width.bytes address with
    | error fault => exact ⟨rfl, unchanged⟩
    | ok value =>
      have reported := respects_report restraint [] ⟨.read, address, width.bytes⟩ _
        announced.governs
      exact ⟨rfl, reported.keeps.trans unchanged⟩

/-- To observers that store nothing, a tracked write is a plain one. -/
theorem store_unstored (governs : restraint.Governs bus) :
    ((store (report []) width.bytes address value).perform bus).1 =
        (bus.memory.write width.bytes address value).map (fun _ => ()) ∧
      ((store (report []) width.bytes address value).perform bus).2.memory =
        (bus.memory.write width.bytes address value).toOption.getD bus.memory := by
  rw [store, Action.perform_ofFunction]
  cases bus.memory.write width.bytes address value with
  | error fault => exact ⟨rfl, rfl⟩
  | ok memory =>
    have governed : restraint.Governs { bus with memory } :=
      ⟨governs.staffed.withMemory memory, governs.permitted⟩
    have reported := respects_report restraint [] ⟨.write, address, width.bytes⟩ _ governed
    exact ⟨rfl, reported.keeps⟩

end Access

/--
An access outside memory fails as the plain one does and is told to nobody. Inside memory a read
is announced, then made on what the observers have left, and then reported; a write is made and
then reported. If observers store nothing, value, fault and memory are those of the plain access.
-/
theorem tracked_access_is_plain_access_with_reports {bus : Bus} (staffed : bus.Staffed)
    (grown : bus.registry.Grown)
    (loyal : ∀ watcher ∈ bus.watchers, ∀ operation, watcher.Performs operation →
      operation.isAccess = true)
    (width : Width) (address : Word) (value : BitVec (8 * width.bytes)) :
    (bus.memory.size < address.toNat + width.bytes →
      (∃ fault, bus.memory.read width.bytes address = .error fault ∧
        (load (report []) width.bytes address).perform bus = (.error fault, bus)) ∧
      ∃ fault, bus.memory.write width.bytes address value = .error fault ∧
        (store (report []) width.bytes address value).perform bus = (.error fault, bus)) ∧
    (address.toNat + width.bytes ≤ bus.memory.size →
      (∃ announced found reported,
        Delivers bus.registry ⟨.preRead, address, width.bytes⟩ bus announced ∧
        announced.memory.read width.bytes address = .ok found ∧
        Delivers bus.registry ⟨.read, address, width.bytes⟩ announced reported ∧
        (load (report []) width.bytes address).perform bus = (.ok found, reported)) ∧
      ∃ memory reported, bus.memory.write width.bytes address value = .ok memory ∧
        Delivers bus.registry ⟨.write, address, width.bytes⟩ { bus with memory } reported ∧
        (store (report []) width.bytes address value).perform bus = (.ok (), reported)) ∧
    ((∀ watcher ∈ bus.watchers, (∃ kept notified, watcher = .observer kept notified) ∧
        ∀ operation, watcher.Performs operation → operation.isWrite = false) →
      ((load (report []) width.bytes address).perform bus).1 =
        bus.memory.read width.bytes address ∧
      ((load (report []) width.bytes address).perform bus).2.memory = bus.memory ∧
      ((store (report []) width.bytes address value).perform bus).1 =
        (bus.memory.write width.bytes address value).map (fun _ => ()) ∧
      ((store (report []) width.bytes address value).perform bus).2.memory =
        (bus.memory.write width.bytes address value).toOption.getD bus.memory) := by
  have bytes : 0 < width.bytes := by cases width <;> decide
  have governs : loyalty.Governs bus := ⟨staffed, loyal⟩
  refine ⟨fun beyond => ⟨load_beyond beyond, store_beyond beyond⟩, fun inside => ⟨?_, ?_⟩,
    fun restrained => ?_⟩
  · obtain ⟨found, read, performed⟩ := load_inside governs inside
    have announced := respects_report loyalty [] ⟨.preRead, address, width.bytes⟩ bus governs
    refine ⟨_, found, _, delivers_report staffed grown bytes, read, ?_, performed⟩
    -- Nobody has subscribed in between.
    rw [← announced.keeps.1] at grown ⊢
    exact delivers_report announced.governs.staffed grown bytes
  · obtain ⟨memory, stored, performed⟩ := store_inside inside
    exact ⟨memory, _, stored, delivers_report (staffed.withMemory memory) grown bytes, performed⟩
  · obtain ⟨found, unchanged⟩ := load_unstored ⟨staffed, restrained⟩
    obtain ⟨outcome, stored⟩ := store_unstored ⟨staffed, restrained⟩
    exact ⟨found, unchanged, outcome, stored⟩

/--
An observer of a word. Before the word is read it adds a number to it, one more each time; when the
word has been written, it writes it once more, and also one word further up.
-/
def echo (address : Word) (step : Nat) : Watcher :=
  .observer step fun step _ touch =>
    .operate (.read .word address false) fun
      | .ok (.value .word word) =>
        match touch.event with
        | .preRead =>
          .operate (.write .word address (word + BitVec.ofNat _ step) false) fun _ =>
            .finish (step + 1)
        | .read => .finish step
        | .write =>
          .operate (.write .word address word true) fun _ =>
            .operate (.write .word (address + 4) word false) fun _ => .finish step
      | _ => .finish step

theorem isAccess_of_echo {address : Word} {step : Nat} {operation : Operation}
    (performs : (echo address step).Performs operation) : operation.isAccess = true := by
  obtain ⟨kept, subscription, touch, performs⟩ := performs
  rcases Reaction.performs_operate.mp performs with rfl | ⟨reply, later⟩
  · rfl
  · split at later
    · split at later
      · obtain rfl | ⟨_, last⟩ := Reaction.performs_operate.mp later
        · rfl
        · cases last
      · cases later
      · obtain rfl | ⟨_, last⟩ := Reaction.performs_operate.mp later
        · rfl
        · obtain rfl | ⟨_, nothing⟩ := Reaction.performs_operate.mp last
          · rfl
          · cases nothing
    · cases later

/-- One observer of the first word, and another one that only listens to the first two words. -/
def refreshing (first : Watcher) : Bus where
  memory := .blank 16 4
  registry :=
    ((Registry.empty.insert 0 ⟨0, 4, .ofList [.preRead, .write]⟩).2.insert 1
      ⟨0, 8, .ofList [.read, .write]⟩).2
  watchers := #[first, .script []]
  now := 0
  journal := #[]

theorem grown_refreshing (first : Watcher) : (refreshing first).registry.Grown :=
  .insert (.insert .empty (by decide)) (by decide)

theorem loyal_refreshing {first : Watcher}
    (loyal : ∀ operation, first.Performs operation → operation.isAccess = true) :
    ∀ watcher ∈ (refreshing first).watchers, ∀ operation, watcher.Performs operation →
      operation.isAccess = true := by
  simpa [refreshing] using loyal

theorem staffed_refreshing {first : Watcher}
    (loyal : ∀ operation, first.Performs operation → operation.isAccess = true) :
    (refreshing first).Staffed where
  held := by simp [refreshing, Registry.insert, Registry.empty]
  reactions watcher member operation performs holder named := by
    have access := loyal_refreshing loyal watcher member operation performs
    cases operation <;> cases named
    cases access

/--
A word that is refreshed as it is read, a write that is echoed one word further up, a word that
does not fit, and one that nobody refreshes.
-/
theorem word_refreshed_before_it_is_read :
    (∃ announced reported,
      let bus := refreshing (echo 0 3)
      Delivers bus.registry ⟨.preRead, 0, 4⟩ bus announced ∧
      bus.memory.read 4 0 = .ok 0 ∧
      announced.memory.read 4 0 = .ok 3 ∧
      Delivers bus.registry ⟨.read, 0, 4⟩ announced reported ∧
      (load (report []) 4 0).perform bus = (.ok 3, reported)) ∧
    (∃ memory reported,
      let bus := refreshing (echo 0 3)
      bus.memory.write 4 0 9 = .ok memory ∧
      Delivers bus.registry ⟨.write, 0, 4⟩ { bus with memory } reported ∧
      (store (report []) 4 0 9).perform bus = (.ok (), reported) ∧
      reported.memory.read 4 4 = .ok 9) ∧
    (∃ fault, (refreshing (echo 0 3)).memory.read 4 14 = .error fault ∧
      (load (report []) 4 14).perform (refreshing (echo 0 3)) =
        (.error fault, refreshing (echo 0 3))) ∧
    ((load (report []) 4 0).perform (refreshing (.script []))).1 =
      (refreshing (.script [])).memory.read 4 0 := by
  have loyal : ∀ operation, (echo 0 3).Performs operation → operation.isAccess = true :=
    fun _ => isAccess_of_echo
  have silent : ∀ operation, (Watcher.script []).Performs operation → operation.isAccess = true := by
    simp
  refine ⟨?_, ?_, ?_, ?_⟩
  · obtain ⟨announced, found, reported, delivers, read, told, loaded⟩ :=
      ((tracked_access_is_plain_access_with_reports (staffed_refreshing loyal)
        (grown_refreshing _) (loyal_refreshing loyal) .word 0 9).2.1 (by decide)).1
    have value : ((load (report []) 4 0).perform (refreshing (echo 0 3))).1 = .ok 3 := rfl
    obtain rfl : found = 3 := Except.ok.inj ((congrArg Prod.fst loaded).symm.trans value)
    exact ⟨announced, reported, delivers, rfl, read, told, loaded⟩
  · obtain ⟨memory, reported, stored, told, performed⟩ :=
      ((tracked_access_is_plain_access_with_reports (staffed_refreshing loyal)
        (grown_refreshing _) (loyal_refreshing loyal) .word 0 9).2.1 (by decide)).2
    have echoed : ((store (report []) 4 0 9).perform
      (refreshing (echo 0 3))).2.memory.read 4 4 = .ok 9 := rfl
    refine ⟨memory, reported, stored, told, performed, ?_⟩
    rwa [show (store (report []) 4 0 9).perform (refreshing (echo 0 3)) = (.ok (), reported) from
      performed] at echoed
  · exact ((tracked_access_is_plain_access_with_reports (staffed_refreshing loyal)
      (grown_refreshing _) (loyal_refreshing loyal) .word 14 7).1 (by decide)).1
  · refine ((tracked_access_is_plain_access_with_reports (staffed_refreshing silent)
      (grown_refreshing _) (loyal_refreshing silent) .word 0 7).2.2 fun watcher member => ?_).1
    obtain rfl : watcher = .script [] := by simpa [refreshing] using member
    exact ⟨⟨_, _, rfl⟩, by simp⟩

end Bus

end ArmBoard
