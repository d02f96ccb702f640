import ArmBoard.Proofs.Bus.Delivery

/-!
# The end of a subscription

An observer that reacts to an access may end subscriptions, its own and those
of others. Whom a report tells was settled when it began, so that a report
under way can still call for a subscription that has just been removed. No
report that begins later does. To say this, a record is kept of the calls and
of the removals in the order in which they happen; it has no effect on the bus.
-/
namespace ArmBoard

namespace Registry

variable {registry : Registry}

/-- Where numbers ascend, no second subscription has the number that is removed. -/
theorem subscriptions_remove (ascending : registry.subscriptions.Pairwise (·.id < ·.id))
    (id : Nat) : (registry.remove id).2.subscriptions =
      registry.subscriptions.filter (·.id != id) := by
  rw [remove]
  generalize registry.subscriptions = subscriptions at ascending
  induction subscriptions with
  | nil => rfl
  | cons subscription rest ih =>
    obtain ⟨larger, ascendingRest⟩ := List.pairwise_cons.mp ascending
    by_cases same : subscription.id = id
    · have others : rest.filter (·.id != id) = rest := by
        refine List.filter_eq_self.mpr fun other member => ?_
        have order := larger other member
        simp only [bne_iff_ne]
        omega
      simp [same, others]
    · simpa [same] using ih ascendingRest

theorem mem_remove (ascending : registry.subscriptions.Pairwise (·.id < ·.id)) (id : Nat)
    (subscription : Subscription) : subscription ∈ (registry.remove id).2.subscriptions ↔
      subscription ∈ registry.subscriptions ∧ subscription.id ≠ id := by
  rw [subscriptions_remove ascending, List.mem_filter, bne_iff_ne]

end Registry

/-- What happens to subscriptions. -/
inductive Mark where
  /-- A call begins, in a report that began when the record had the given length. -/
  | called (since : Nat) (id : Nat)
  /-- A subscription that was there has been removed. -/
  | removed (id : Nat)
  deriving DecidableEq, Repr

/-- The subscription that is called for. -/
def Mark.called? : Mark → Option Nat
  | called _ id => some id
  | removed _ => none

def Entry.called? : Entry → Option Nat
  | entered id _ _ => some id
  | performed .. | left _ => none

/-- A bus and the record of what has happened to its subscriptions. -/
structure RecordedBus where
  bus : Bus
  marks : List Mark

namespace RecordedBus

def record (recorded : RecordedBus) (mark : Mark) : RecordedBus :=
  { recorded with marks := recorded.marks ++ [mark] }

def note (recorded : RecordedBus) (entry : Entry) : RecordedBus :=
  { recorded with bus := recorded.bus.note entry }

/-- Ends a subscription, which is recorded if there was one of that number. -/
def unobserve (id : Nat) (recorded : RecordedBus) : Bool × RecordedBus :=
  let (known, bus) := recorded.bus.unobserve id
  (known, ⟨bus, if known then recorded.marks ++ [.removed id] else recorded.marks⟩)

/-- Performs an operation; its tracked accesses are reported by `report`. -/
def perform (report : Touch → RecordedBus → RecordedBus) (recorded : RecordedBus) :
    Operation → Except Fault Reply × RecordedBus
  | .read width address true =>
      match recorded.bus.memory.check address width.bytes with
      | .error fault => (.error fault, recorded)
      | .ok () =>
        let announced := report ⟨.preRead, address, width.bytes⟩ recorded
        match announced.bus.memory.read width.bytes address with
        | .error fault => (.error fault, announced)
        | .ok bits => (.ok (.value width bits), report ⟨.read, address, width.bytes⟩ announced)
  | .write width address value true =>
      match recorded.bus.memory.write width.bytes address value with
      | .error fault => (.error fault, recorded)
      | .ok memory =>
        (.ok .done, report ⟨.write, address, width.bytes⟩
          { recorded with bus := { recorded.bus with memory } })
  | .unobserve id =>
      let (known, ended) := recorded.unobserve id
      (.ok (.removed known), ended)
  | operation =>
      -- What is left is reported to nobody.
      let (reply, bus) := (Bus.perform (fun _ bus => bus) operation).perform recorded.bus
      (reply, { recorded with bus })

def follow (report : Touch → RecordedBus → RecordedBus) (holder : Handle) :
    Reaction → RecordedBus → Nat × RecordedBus
  | .finish kept, recorded => (kept, recorded)
  | .operate operation next, recorded =>
      let (reply, recorded) := recorded.perform report operation
      follow report holder (next reply) (recorded.note (.performed holder reply))

def notify (report : Touch → RecordedBus → RecordedBus) (subscription : Nat) (holder : Handle)
    (touch : Touch) (recorded : RecordedBus) : RecordedBus :=
  match recorded.bus.watchers[holder]? with
  | some (.observer kept notified) =>
      let (kept, recorded) := recorded.follow report holder (notified kept subscription touch)
      { recorded with bus := recorded.bus.setWatcher holder (.observer kept notified) }
  -- Peripherals report nothing of what they do in a reaction.
  | _ => { recorded with bus := recorded.bus.notify (fun _ bus => bus) subscription holder touch }

def deliver (report : Touch → RecordedBus → RecordedBus) (since : Nat)
    (subscription : Subscription) (touch : Touch) (recorded : RecordedBus) : RecordedBus :=
  let recorded := recorded.note (.entered subscription.id subscription.holder touch)
  let recorded := recorded.record (.called since subscription.id)
  let recorded := recorded.notify report subscription.id subscription.holder touch
  recorded.note (.left subscription.holder)

def reportWithin : Nat → List Handle → Touch → RecordedBus → RecordedBus
  | 0, _, _, recorded => recorded
  | level + 1, busy, touch, recorded =>
      (recorded.bus.registry.hearing touch).foldl
        (fun current subscription =>
          if busy.contains subscription.holder then current
          else
            current.deliver (reportWithin level (subscription.holder :: busy))
              recorded.marks.length subscription touch)
        recorded

def report (busy : List Handle) (touch : Touch) (recorded : RecordedBus) : RecordedBus :=
  reportWithin recorded.bus.watchers.size busy touch recorded

/-- Performs operations one after the other while nobody is busy. -/
def run (operations : List Operation) (recorded : RecordedBus) : RecordedBus :=
  operations.foldl (fun recorded operation => (recorded.perform (report []) operation).2) recorded

end RecordedBus

/-- Performs operations one after the other while nobody is busy, whatever their replies. -/
def Bus.run (operations : List Operation) (bus : Bus) : Bus :=
  operations.foldl (fun bus operation => ((perform (report []) operation).perform bus).2) bus

namespace RecordedBus

/-- A reporter that keeps the record does to the bus what one without it does. -/
def Shadows (recording : Touch → RecordedBus → RecordedBus) (report : Reporter) : Prop :=
  ∀ touch recorded, (recording touch recorded).bus = report touch recorded.bus

section Shadow

variable {recording : Touch → RecordedBus → RecordedBus} {report : Reporter}

theorem perform_shadows (shadows : Shadows recording report) (recorded : RecordedBus)
    (operation : Operation) :
    (Bus.perform report operation).perform recorded.bus =
      ((recorded.perform recording operation).1, (recorded.perform recording operation).2.bus) := by
  cases operation with
  | read width address tracked =>
    cases tracked with
    | false => rfl
    | true =>
      simp only [Bus.perform, perform, Action.perform_bind, Bus.load, Action.perform_ofFunction]
      cases recorded.bus.memory.check address width.bytes with
      | error fault => rfl
      | ok _ =>
        dsimp only
        rw [← shadows]
        cases (recording ⟨.preRead, address, width.bytes⟩ recorded).bus.memory.read width.bytes
          address with
        | error fault => rfl
        | ok bits =>
          dsimp only
          rw [← shadows]
          rfl
  | write width address value tracked =>
    cases tracked with
    | false => rfl
    | true =>
      simp only [Bus.perform, perform, Action.perform_bind, Bus.store, Action.perform_ofFunction]
      cases recorded.bus.memory.write width.bytes address value with
      | error fault => rfl
      | ok memory =>
        dsimp only
        rw [shadows]
        rfl
  | addWord | putChunk | chunk | pages | extent | observe | unobserve => rfl

theorem follow_shadows (shadows : Shadows recording report) (holder : Handle) (reaction : Reaction)
    (recorded : RecordedBus) :
    recorded.bus.follow report holder reaction =
      ((recorded.follow recording holder reaction).1,
        (recorded.follow recording holder reaction).2.bus) := by
  induction reaction generalizing recorded with
  | finish => rfl
  | operate operation next ih =>
    rw [follow, Bus.follow, perform_shadows shadows]
    rcases recorded.perform recording operation with ⟨reply, reached⟩
    exact ih reply (reached.note (.performed holder reply))

theorem notify_shadows (shadows : Shadows recording report) (subscription : Nat) (holder : Handle)
    (touch : Touch) (recorded : RecordedBus) :
    (recorded.notify recording subscription holder touch).bus =
      recorded.bus.notify report subscription holder touch := by
  unfold notify Bus.notify
  cases recorded.bus.watchers[holder]? with
  | none => rfl
  | some watcher =>
    cases watcher with
    | observer kept notified =>
      dsimp only
      rw [follow_shadows shadows]
    | gpu | timer => rfl

theorem reportWithin_shadows (level : Nat) (busy : List Handle) :
    Shadows (reportWithin level busy) (Bus.reportWithin level busy) := by
  induction level generalizing busy with
  | zero => exact fun _ _ => rfl
  | succ level ih =>
    intro touch recorded
    rw [reportWithin, Bus.reportWithin]
    -- Length and recipients are fixed at the start, while the bus changes from call to call.
    generalize recorded.marks.length = since
    generalize recorded.bus.registry.hearing touch = told
    induction told generalizing recorded with
    | nil => rfl
    | cons subscription rest next =>
      rw [List.foldl_cons, List.foldl_cons]
      split
      · exact next recorded
      · rw [next, deliver, note, notify_shadows (ih _)]
        rfl

theorem report_shadows (busy : List Handle) : Shadows (RecordedBus.report busy) (Bus.report busy) :=
  fun touch recorded => reportWithin_shadows recorded.bus.watchers.size busy touch recorded

theorem run_shadows (operations : List Operation) (recorded : RecordedBus) :
    (run operations recorded).bus = Bus.run operations recorded.bus := by
  induction operations generalizing recorded with
  | nil => rfl
  | cons operation rest ih =>
    rw [run, Bus.run, List.foldl_cons, List.foldl_cons, perform_shadows (report_shadows [])]
    exact ih _

end Shadow

/-- After a removal only reports that had begun before it call for the subscription. -/
def Final (marks : List Mark) : Prop :=
  ∀ before id after, marks = before ++ .removed id :: after →
    ∀ since, .called since id ∈ after → since ≤ before.length

/-- A call is made for a subscription that had not been removed when the report began. -/
theorem Final.append {marks : List Mark} (final : Final marks) {mark : Mark}
    (present : ∀ since id, mark = .called since id → .removed id ∉ marks.take since) :
    Final (marks ++ [mark]) := by
  intro before id after split since called
  obtain rfl | ⟨between, last, rfl⟩ := after.eq_nil_or_concat
  · cases called
  -- Something follows the removal, so the new mark is the last one and the rest are old ones.
  rw [List.concat_eq_append] at split called
  rw [← List.cons_append, ← List.append_assoc] at split
  obtain ⟨rfl, same⟩ := List.append_inj' split rfl
  rcases List.mem_append.mp called with old | new
  · exact final before id between rfl since old
  · obtain rfl := List.singleton_inj.mp same
    have absent := present since id (List.mem_singleton.mp new).symm
    -- A report that began after the removal would have had it in its record.
    by_contra late
    obtain ⟨more, rfl⟩ := Nat.exists_eq_add_of_lt (Nat.lt_of_not_le late)
    apply absent
    rw [Nat.add_assoc, List.take_length_add_append]
    exact List.mem_append_right before List.mem_cons_self

/--
A record that is right about the bus: it tells the calls of the journal from the given ones on, and
what it tells as removed has left the registry for good.
-/
structure Faithful (earlier : List Nat) (recorded : RecordedBus) : Prop where
  grown : recorded.bus.registry.Grown
  calls : recorded.bus.journal.toList.filterMap Entry.called? =
    earlier ++ recorded.marks.filterMap Mark.called?
  below : ∀ id, .removed id ∈ recorded.marks → id < recorded.bus.registry.nextId
  gone : ∀ subscription ∈ recorded.bus.registry.subscriptions,
    .removed subscription.id ∉ recorded.marks
  final : Final recorded.marks

/-- The record has been continued, and it is still right. -/
structure Continues (earlier : List Nat) (recorded later : RecordedBus) : Prop where
  faithful : Faithful earlier later
  marks : recorded.marks <+: later.marks

/-- A reporter continues every record. -/
def Respects (earlier : List Nat) (recording : Touch → RecordedBus → RecordedBus) : Prop :=
  ∀ touch recorded, Faithful earlier recorded →
    Continues earlier recorded (recording touch recorded)

section Continuation

variable {earlier : List Nat} {recorded later : RecordedBus}
  {recording : Touch → RecordedBus → RecordedBus}

theorem Faithful.continues (faithful : Faithful earlier recorded) :
    Continues earlier recorded recorded :=
  ⟨faithful, List.prefix_rfl⟩

theorem Continues.trans {last : RecordedBus} (first : Continues earlier recorded later)
    (second : Continues earlier later last) : Continues earlier recorded last :=
  ⟨second.faithful, first.marks.trans second.marks⟩

/-- Changes to all but the registry and the journal. -/
theorem Faithful.withBus (faithful : Faithful earlier recorded) (bus : Bus)
    (registry : bus.registry = recorded.bus.registry)
    (journal : bus.journal = recorded.bus.journal) :
    Faithful earlier { recorded with bus } := by
  obtain ⟨grown, calls, below, gone, final⟩ := faithful
  rw [← registry] at grown below gone
  rw [← journal] at calls
  exact ⟨grown, calls, below, gone, final⟩

theorem Faithful.note (faithful : Faithful earlier recorded) {entry : Entry}
    (silent : entry.called? = none) : Continues earlier recorded (recorded.note entry) := by
  obtain ⟨grown, calls, below, gone, final⟩ := faithful
  refine ⟨⟨grown, ?_, below, gone, final⟩, List.prefix_rfl⟩
  simp [RecordedBus.note, Bus.note, silent, calls]

theorem Faithful.called (faithful : Faithful earlier recorded) {since : Nat}
    {subscription : Subscription} (present : .removed subscription.id ∉ recorded.marks.take since)
    (touch : Touch) :
    Continues earlier recorded
      ((recorded.note (.entered subscription.id subscription.holder touch)).record
        (.called since subscription.id)) := by
  obtain ⟨grown, calls, below, gone, final⟩ := faithful
  refine ⟨⟨grown, ?_, ?_, ?_, final.append ?_⟩, List.prefix_append _ _⟩
  · simp [record, RecordedBus.note, Bus.note, Entry.called?, Mark.called?, calls]
  · simpa [record, RecordedBus.note, Bus.note] using below
  · simpa [record, RecordedBus.note, Bus.note] using gone
  · rintro _ _ ⟨⟩
    exact present

theorem Faithful.subscribed (faithful : Faithful earlier recorded) {holder : Handle}
    {watch : Watch} (fit : watch.complaint? = none) :
    Faithful earlier { recorded with
      bus := { recorded.bus with registry := (recorded.bus.registry.insert holder watch).2 } } := by
  obtain ⟨grown, calls, below, gone, final⟩ := faithful
  refine ⟨grown.insert fit, calls, ?_, ?_, final⟩
  · exact fun id removed => Nat.lt_succ_of_lt (below id removed)
  · intro subscription member removed
    rcases List.mem_append.mp member with old | new
    · exact gone subscription old removed
    · -- The new number is larger than all that have been removed.
      rw [List.mem_singleton.mp new] at removed
      exact Nat.lt_irrefl _ (below _ removed)

theorem Faithful.unsubscribed (faithful : Faithful earlier recorded) (id : Nat) :
    Continues earlier recorded (recorded.unobserve id).2 := by
  obtain ⟨grown, calls, below, gone, final⟩ := faithful
  have left := Registry.mem_remove grown.orderly.ascending id
  have marked : (recorded.unobserve id).2.marks =
      if (recorded.bus.registry.remove id).1 then recorded.marks ++ [.removed id]
      else recorded.marks := rfl
  split at marked
  · next known =>
    obtain ⟨ended, member, same⟩ := List.any_eq_true.mp known
    refine ⟨⟨grown.remove, ?_, ?_, ?_, ?_⟩, ?_⟩ <;> rw [marked]
    · rw [List.filterMap_append, ← List.append_assoc, ← calls]
      exact (List.append_nil _).symm
    · intro other removed
      rcases List.mem_append.mp removed with old | new
      · exact below other old
      · cases List.mem_singleton.mp new
        rw [← beq_iff_eq.mp same]
        exact grown.orderly.below ended member
    · intro subscription remains removed
      obtain ⟨old, different⟩ := (left subscription).mp remains
      rcases List.mem_append.mp removed with before | now
      · exact gone subscription old before
      · cases List.mem_singleton.mp now
        exact different rfl
    · exact final.append nofun
    · exact List.prefix_append _ _
  · have same : recorded.marks <+: (recorded.unobserve id).2.marks := by
      simp only [marked, List.prefix_rfl]
    refine ⟨⟨grown.remove, ?_, ?_, ?_, ?_⟩, same⟩ <;> rw [marked]
    · exact calls
    · exact below
    · exact fun subscription remains => gone subscription ((left subscription).mp remains).1
    · exact final

/-- An operation that is no access reported, and none on the subscriptions. -/
theorem Faithful.unreported (faithful : Faithful earlier recorded) (operation : Operation)
    (access : operation.isAccess = true) :
    Faithful earlier { recorded with
      bus := ((Bus.perform (fun _ bus => bus) operation).perform recorded.bus).2 } := by
  have same : ∀ {after}, Bus.Changes operation recorded.bus after →
      Faithful earlier { recorded with bus := after } := by
    intro after changes
    cases changes with
    | nothing => exact faithful
    | stored => exact faithful.withBus _ rfl rfl
    | subscribed subscribes =>
      rw [subscribes] at access
      cases access
    | unsubscribed unsubscribes =>
      rw [unsubscribes] at access
      cases access
  have leaves := Bus.leaves_perform (fun _ bus => bus) recorded.bus operation
  generalize ((Bus.perform (fun _ bus => bus) operation).perform recorded.bus).2 = after at leaves
  cases leaves with
  | unreported changes => exact same changes
  | announced | read => exact faithful
  | written touch changes => exact same changes

theorem continues_perform (respects : Respects earlier recording)
    (faithful : Faithful earlier recorded) (operation : Operation) :
    Continues earlier recorded (recorded.perform recording operation).2 := by
  cases operation with
  | read width address tracked =>
    cases tracked with
    | false => exact ⟨faithful.unreported (.read width address false) rfl, List.prefix_rfl⟩
    | true =>
      rw [perform]
      cases recorded.bus.memory.check address width.bytes with
      | error fault => exact faithful.continues
      | ok _ =>
        -- Its observers may have changed the bus before the value is read.
        have announced := respects ⟨.preRead, address, width.bytes⟩ recorded faithful
        dsimp only
        cases (recording ⟨.preRead, address, width.bytes⟩ recorded).bus.memory.read width.bytes
          address with
        | error fault => exact announced
        | ok bits => exact announced.trans (respects _ _ announced.faithful)
  | write width address value tracked =>
    cases tracked with
    | false =>
      exact ⟨faithful.unreported (.write width address value false) rfl, List.prefix_rfl⟩
    | true =>
      rw [perform]
      cases recorded.bus.memory.write width.bytes address value with
      | error fault => exact faithful.continues
      | ok memory =>
        have written := faithful.withBus { recorded.bus with memory } rfl rfl
        exact ⟨(respects _ _ written).faithful, (respects _ _ written).marks⟩
  | observe holder watch =>
    refine ⟨?_, List.prefix_rfl⟩
    simp only [perform, Bus.perform, Action.perform_bind, Bus.observe, Action.perform_ofFunction]
    cases fit : watch.complaint? with
    | some complaint => exact faithful
    | none => exact faithful.subscribed fit
  | unobserve id => exact faithful.unsubscribed id
  | addWord address value =>
    exact ⟨faithful.unreported (.addWord address value) rfl, List.prefix_rfl⟩
  | putChunk address bytes =>
    exact ⟨faithful.unreported (.putChunk address bytes) rfl, List.prefix_rfl⟩
  | chunk | pages | extent => exact faithful.continues

theorem continues_follow (respects : Respects earlier recording)
    (faithful : Faithful earlier recorded) (holder : Handle) (reaction : Reaction) :
    Continues earlier recorded (recorded.follow recording holder reaction).2 := by
  induction reaction generalizing recorded with
  | finish => exact faithful.continues
  | operate operation next ih =>
    have performed := continues_perform respects faithful operation
    rw [follow]
    rcases result : recorded.perform recording operation with ⟨reply, between⟩
    rw [result] at performed
    have noted : Continues earlier between (between.note (.performed holder reply)) :=
      performed.faithful.note rfl
    exact performed.trans (noted.trans (ih reply noted.faithful))

theorem continues_notify (respects : Respects earlier recording)
    (faithful : Faithful earlier recorded) (subscription : Nat) (holder : Handle) (touch : Touch) :
    Continues earlier recorded (recorded.notify recording subscription holder touch) := by
  unfold notify
  split
  · next kept notified _ =>
    have followed :=
      continues_follow respects faithful holder (notified kept subscription touch)
    exact ⟨followed.faithful.withBus _ rfl rfl, followed.marks⟩
  · next other =>
    refine ⟨?_, List.prefix_rfl⟩
    unfold Bus.notify
    split
    · exact faithful
    · next kept notified present => exact absurd present (other kept notified)
    · exact faithful.withBus _ rfl rfl
    · exact faithful.withBus _ rfl rfl

theorem continues_deliver (respects : Respects earlier recording)
    (faithful : Faithful earlier recorded) {since : Nat} {subscription : Subscription}
    (present : .removed subscription.id ∉ recorded.marks.take since) (touch : Touch) :
    Continues earlier recorded (recorded.deliver recording since subscription touch) := by
  have called := faithful.called present touch
  have reacted :=
    continues_notify respects called.faithful subscription.id subscription.holder touch
  exact called.trans (reacted.trans (reacted.faithful.note rfl))

theorem respects_reportWithin (earlier : List Nat) (level : Nat) (busy : List Handle) :
    Respects earlier (reportWithin level busy) := by
  intro touch recorded faithful
  induction level generalizing busy touch recorded with
  | zero => exact faithful.continues
  | succ level ih =>
    -- Who is told was subscribed when the report began, and so had not been removed by then.
    have present : ∀ subscription ∈ recorded.bus.registry.hearing touch,
        .removed subscription.id ∉ recorded.marks := fun subscription member =>
      faithful.gone subscription (List.mem_filter.mp member).1
    rw [reportWithin]
    generalize recorded.bus.registry.hearing touch = told at present
    generalize start : recorded.marks = marks at present
    have began : marks <+: recorded.marks := start ▸ List.prefix_rfl
    clear start
    -- The record grows from call to call, and what it was when the report began stays its start.
    induction told generalizing recorded with
    | nil => exact faithful.continues
    | cons subscription rest next =>
      obtain ⟨here, later⟩ := List.forall_mem_cons.mp present
      rw [List.foldl_cons]
      split
      · exact next recorded faithful later began
      · rw [List.prefix_iff_eq_take.mp began] at here
        have delivered := continues_deliver
          (fun touch recorded faithful => ih (subscription.holder :: busy) touch recorded faithful)
          faithful here touch
        exact delivered.trans
          (next _ delivered.faithful later (began.trans delivered.marks))

theorem continues_run (faithful : Faithful earlier recorded) (operations : List Operation) :
    Continues earlier recorded (run operations recorded) := by
  induction operations generalizing recorded with
  | nil => exact faithful.continues
  | cons operation rest ih =>
    have performed := continues_perform
      (fun touch recorded =>
        respects_reportWithin earlier recorded.bus.watchers.size [] touch recorded)
      faithful operation
    exact performed.trans (ih performed.faithful)

end Continuation

/--
Whatever operations are performed on a bus, and whatever observers do in their reactions: from the
moment at which a subscription is removed, it is called for only in reports that began before.
The record that tells this has the calls of the journal and leaves no trace on the bus.
-/
theorem removal_is_final_for_later_reports {bus : Bus} (grown : bus.registry.Grown)
    (operations : List Operation) :
    (run operations ⟨bus, []⟩).bus = Bus.run operations bus ∧
    (Bus.run operations bus).journal.toList.filterMap Entry.called? =
      bus.journal.toList.filterMap Entry.called? ++
        (run operations ⟨bus, []⟩).marks.filterMap Mark.called? ∧
    ∀ before id after, (run operations ⟨bus, []⟩).marks = before ++ .removed id :: after →
      ∀ since, .called since id ∈ after → since ≤ before.length := by
  have faithful : Faithful (bus.journal.toList.filterMap Entry.called?) ⟨bus, []⟩ :=
    ⟨grown, by simp, nofun, nofun, by simp [Final]⟩
  have erased := run_shadows operations ⟨bus, []⟩
  obtain ⟨_, calls, _, _, final⟩ := (continues_run faithful operations).faithful
  rw [erased] at calls
  exact ⟨erased, calls, final⟩

/-- Two observers of the first bytes. The one that is told first removes the other one. -/
def parting : Bus where
  memory := .blank 16 4
  registry := ((Registry.empty.insert 0 ⟨0, 4, .ofList [.write]⟩).2.insert 1
    ⟨0, 4, .ofList [.write]⟩).2
  watchers := #[.script [(.write, .unobserve 2)], .script []]
  now := 0
  journal := #[]

theorem grown_parting : parting.registry.Grown := .insert (.insert .empty (by decide)) (by decide)

/-- The report of the first write still calls the one that has gone, the second one does not. -/
theorem parting_observer_is_told_once_more :
    parting.registry.Grown ∧
    (run [.write .byte 0 1 true, .write .byte 0 2 true] ⟨parting, []⟩).marks =
      [.called 0 1, .removed 2, .called 0 2, .called 3 1] ∧
    ∀ before id after,
      (run [.write .byte 0 1 true, .write .byte 0 2 true] ⟨parting, []⟩).marks =
        before ++ .removed id :: after →
      ∀ since, .called since id ∈ after → since ≤ before.length := by
  refine ⟨grown_parting, ?_, ?_⟩
  · rfl
  · exact (removal_is_final_for_later_reports grown_parting _).2.2

/-- A removal is not final for an access that is being reported. -/
theorem removed_subscription_can_still_be_called :
    ¬ ∀ (bus : Bus) (operations : List Operation), bus.registry.Grown →
      ∀ before id after, (run operations ⟨bus, []⟩).marks = before ++ .removed id :: after →
        ∀ since, .called since id ∉ after := by
  intro final
  have marks : (run [.write .byte 0 1 true] ⟨parting, []⟩).marks =
      [.called 0 1] ++ .removed 2 :: [.called 0 2] := rfl
  exact final parting _ grown_parting _ _ _ marks 0 List.mem_cons_self

end RecordedBus

end ArmBoard
