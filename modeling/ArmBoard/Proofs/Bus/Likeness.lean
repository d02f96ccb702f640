import ArmBoard.Bus.Basic

/-!
# Buses that are alike

Two memories may hold the same bytes in different pages, and two journals may
tell of different pasts. No access tells such buses apart, nor does any report,
as long as no observer goes by which pages there are: from buses that are alike
an action comes to the same outcome, and leaves buses that are alike again.
-/
namespace ArmBoard

/-- Two results that are the same fault, or values that are related. -/
inductive Tally {α : Type} (related : α → α → Prop) : Except Fault α → Except Fault α → Prop
  | failed (fault : Fault) : Tally related (.error fault) (.error fault)
  | made {first second : α} (alike : related first second) : Tally related (.ok first) (.ok second)

theorem Tally.map {α β : Type} {related : α → α → Prop} {others : β → β → Prop} {f g : α → β}
    {first second : Except Fault α} (tally : Tally related first second)
    (kept : ∀ {one two}, related one two → others (f one) (g two)) :
    Tally others (first.map f) (second.map g) := by
  cases tally with
  | failed fault => exact .failed fault
  | made alike => exact .made (kept alike)

namespace Action

variable {σ τ α β : Type} {alike : σ → σ → Prop}

/-- From states that are alike an action comes to one outcome and to states that are alike. -/
structure Respects (alike : σ → σ → Prop) (action : Action σ α) : Prop where
  both : ∀ {state other : σ}, alike state other →
    (action.perform state).1 = (action.perform other).1 ∧
      alike (action.perform state).2 (action.perform other).2

namespace Respects

theorem pure (value : α) : Respects alike (Pure.pure value : Action σ α) :=
  ⟨fun same => ⟨rfl, same⟩⟩

theorem fail (fault : Fault) : Respects alike (Action.fail fault : Action σ α) :=
  ⟨fun same => ⟨rfl, same⟩⟩

theorem ask {question : σ → Except Fault α}
    (agree : ∀ {state other}, alike state other → question state = question other) :
    Respects alike (Action.ask question) := ⟨fun same => ⟨agree same, same⟩⟩

theorem change {update : σ → σ}
    (kept : ∀ {state other}, alike state other → alike (update state) (update other)) :
    Respects alike (Action.change update) := ⟨fun same => ⟨rfl, kept same⟩⟩

theorem changeOr {update : σ → Except Fault σ}
    (tally : ∀ {state other}, alike state other → Tally alike (update state) (update other)) :
    Respects alike (Action.changeOr update) := by
  constructor
  intro state other same
  have results := tally same
  simp only [perform, Action.changeOr]
  generalize update state = first at results
  generalize update other = second at results
  cases results with
  | failed fault => exact ⟨rfl, same⟩
  | made kept => exact ⟨rfl, kept⟩

/-- What two performances have come to, if the outcome is the same. -/
theorem cases {action : Action σ α} (respects : Respects alike action) {state other : σ}
    (same : alike state other) :
    ∃ outcome reached otherReached, action.perform state = (outcome, reached) ∧
      action.perform other = (outcome, otherReached) ∧ alike reached otherReached := by
  obtain ⟨outcome, kept⟩ := respects.both same
  refine ⟨(action.perform state).1, _, (action.perform other).2, rfl, ?_, kept⟩
  rw [outcome]

theorem bind {action : Action σ α} {next : α → Action σ β} (first : Respects alike action)
    (second : ∀ value, Respects alike (next value)) : Respects alike (action >>= next) := by
  constructor
  intro state other same
  obtain ⟨outcome, reached, otherReached, performed, otherPerformed, kept⟩ := first.cases same
  rw [perform_bind, perform_bind, performed, otherPerformed]
  cases outcome with
  | error fault => exact ⟨rfl, kept⟩
  | ok value => exact (second value).both kept

theorem mapFault {action : Action σ α} (f : Fault → Fault) (respects : Respects alike action) :
    Respects alike (Action.mapFault f action) := by
  constructor
  intro state other same
  obtain ⟨outcome, reached, otherReached, performed, otherPerformed, kept⟩ := respects.cases same
  rw [perform_mapFault, perform_mapFault, performed, otherPerformed]
  cases outcome <;> exact ⟨rfl, kept⟩

theorem onPart {whole : τ → τ → Prop} {part : τ → σ} {replace : τ → σ → τ} {action : Action σ α}
    (respects : Respects alike action)
    (parts : ∀ {state other}, whole state other → alike (part state) (part other))
    (replaced : ∀ {state other first second}, whole state other → alike first second →
      whole (replace state first) (replace other second)) :
    Respects whole (Action.onPart part replace action) := by
  constructor
  intro state other same
  obtain ⟨outcome, kept⟩ := respects.both (parts same)
  exact ⟨outcome, replaced same kept⟩

end Respects

end Action

namespace Memory

/-- Memories of one size and page size that hold the same bytes, in whatever pages. -/
structure Alike (memory other : Memory) : Prop where
  size : memory.size = other.size
  pageBits : memory.pageBits = other.pageBits
  byteAt : ∀ place, memory.byteAt place = other.byteAt place

namespace Alike

variable {memory other : Memory}

theorem check_eq (alike : memory.Alike other) (address : Word) (count : Nat) :
    memory.check address count = other.check address count := by
  rw [check, check, alike.size]

theorem bytesAt_eq (alike : memory.Alike other) (address count : Nat) :
    memory.bytesAt address count = other.bytesAt address count := by
  rw [Memory.bytesAt_eq, Memory.bytesAt_eq]
  simp only [alike.byteAt]

theorem read_eq (alike : memory.Alike other) (count : Nat) (address : Word) :
    memory.read count address = other.read count address := by
  rw [read, read, alike.check_eq, alike.bytesAt_eq]

theorem readWord_eq (alike : memory.Alike other) (address : Word) :
    memory.readWord address = other.readWord address := alike.read_eq 4 address

theorem room_eq (alike : memory.Alike other) (address : Word) (count : Nat) :
    memory.room address count = other.room address count := by
  rw [room, room, alike.size]

theorem chunk_eq (alike : memory.Alike other) (address : Word) (count : Nat) :
    memory.chunk address count = other.chunk address count := by
  rw [chunk, chunk, alike.room_eq, alike.bytesAt_eq]

theorem setBytes (alike : memory.Alike other) (address : Nat) (bytes : List Byte) :
    (memory.setBytes address bytes).Alike (other.setBytes address bytes) where
  size := alike.size
  pageBits := alike.pageBits
  byteAt place := by rw [byteAt_setBytes, byteAt_setBytes, alike.byteAt]

theorem write (alike : memory.Alike other) (count : Nat) (address : Word)
    (value : BitVec (8 * count)) :
    Tally Alike (memory.write count address value) (other.write count address value) := by
  rw [Memory.write, Memory.write, alike.check_eq]
  cases other.check address count with
  | error fault => exact .failed fault
  | ok _ => exact .made (alike.setBytes address.toNat _)

theorem putChunk (alike : memory.Alike other) (address : Word) (bytes : List Byte) :
    (memory.putChunk address bytes).1 = (other.putChunk address bytes).1 ∧
      (memory.putChunk address bytes).2.Alike (other.putChunk address bytes).2 := by
  rw [Memory.putChunk, Memory.putChunk, alike.room_eq]
  exact ⟨rfl, alike.setBytes address.toNat _⟩

end Alike

end Memory

section Peripherals

variable {memory other : Memory}

theorem Gpu.publishStatus_alike (gpu : Gpu) (alike : memory.Alike other) :
    Tally Memory.Alike (gpu.publishStatus memory) (gpu.publishStatus other) := by
  rw [publishStatus, publishStatus]
  cases gpu.mailboxBase with
  | error fault => exact .failed fault
  | ok base => exact alike.write 4 _ _

theorem Gpu.hear_alike (gpu : Gpu) (alike : memory.Alike other) (touch : Touch) :
    (gpu.hear memory touch).1 = (gpu.hear other touch).1 ∧
      (gpu.hear memory touch).2.Alike (gpu.hear other touch).2 := by
  unfold hear
  cases gpu.mailboxBase? with
  | none => exact ⟨rfl, alike⟩
  | some base =>
    -- Both find the same mail, if they look for one.
    simp only [alike.readWord_eq]
    split
    · exact ⟨rfl, alike⟩
    · next changed _ =>
      have published := changed.publishStatus_alike alike
      generalize changed.publishStatus memory = first at published
      generalize changed.publishStatus other = second at published
      cases published with
      | failed fault => exact ⟨rfl, alike⟩
      | made written => exact ⟨rfl, written⟩

theorem Timer.hear_alike (timer : Timer) (now : Nat) (alike : memory.Alike other) (touch : Touch) :
    (timer.hear now memory touch).Alike (timer.hear now other touch) := by
  have refreshed : Tally Memory.Alike (timer.refresh now memory) (timer.refresh now other) := by
    rw [refresh, refresh]
    cases timer.base with
    | error fault => exact .failed fault
    | ok base => exact alike.write 8 _ _
  rw [hear, hear]
  split
  · generalize timer.refresh now memory = first at refreshed
    generalize timer.refresh now other = second at refreshed
    cases refreshed with
    | failed fault => exact alike
    | made written => exact written
  · exact alike

end Peripherals

/-- A reaction goes on in the same way, whichever pages it is told that memory has. -/
def Reaction.IgnoresPages : Reaction → Prop
  | finish _ => True
  | operate operation next =>
      (operation = .pages → ∀ reply other, next reply = next other) ∧
        ∀ reply, (next reply).IgnoresPages

theorem Reaction.ignoresPages_ofList (operations : List Operation) :
    (ofList operations).IgnoresPages := by
  induction operations with
  | nil => trivial
  | cons operation rest ih => exact ⟨fun _ _ _ => rfl, fun _ => ih⟩

namespace Watcher

def IgnoresPages : Watcher → Prop
  | observer _ notified =>
      ∀ kept subscription touch, (notified kept subscription touch).IgnoresPages
  | gpu _ | timer _ => True

theorem ignoresPages_script (reactions : List (Event × Operation)) :
    (script reactions).IgnoresPages := fun _ _ _ => Reaction.ignoresPages_ofList _

end Watcher

namespace Bus

open ArmBoard.Action (Respects)

/--
Buses with the same bytes in memory, subscriptions, watchers and time of day, where no watcher goes
by which pages memory has.
-/
structure Alike (bus other : Bus) : Prop where
  memory : bus.memory.Alike other.memory
  registry : bus.registry = other.registry
  watchers : bus.watchers = other.watchers
  now : bus.now = other.now
  ignorant : ∀ watcher ∈ bus.watchers, watcher.IgnoresPages

namespace Alike

variable {bus other : Bus}

theorem withMemory (alike : bus.Alike other) {memory changed : Memory}
    (same : memory.Alike changed) :
    Alike { bus with memory } { other with memory := changed } :=
  ⟨same, alike.registry, alike.watchers, alike.now, alike.ignorant⟩

theorem note (alike : bus.Alike other) (entry otherEntry : Entry) :
    (bus.note entry).Alike (other.note otherEntry) :=
  ⟨alike.memory, alike.registry, alike.watchers, alike.now, alike.ignorant⟩

theorem setWatcher (alike : bus.Alike other) (holder : Handle) {watcher : Watcher}
    (ignorant : watcher.IgnoresPages) :
    (bus.setWatcher holder watcher).Alike (other.setWatcher holder watcher) where
  memory := alike.memory
  registry := alike.registry
  watchers := congrArg (·.setIfInBounds holder watcher) alike.watchers
  now := alike.now
  ignorant other member := by
    rcases Array.mem_or_eq_of_mem_setIfInBounds member with old | rfl
    · exact alike.ignorant other old
    · exact ignorant

end Alike

/-- A reporter leaves buses alike that were alike. -/
def Impartial (report : Reporter) : Prop :=
  ∀ touch {bus other : Bus}, bus.Alike other → (report touch bus).Alike (report touch other)

section Reporters

variable {report : Reporter} {bus other : Bus}

theorem load_respects (impartial : Impartial report) (count : Nat) (address : Word) :
    Respects Alike (load report count address) := by
  constructor
  intro bus other alike
  rw [load, Action.perform_ofFunction, Action.perform_ofFunction, alike.memory.check_eq]
  cases other.memory.check address count with
  | error fault => exact ⟨rfl, alike⟩
  | ok _ =>
    have announced := impartial ⟨.preRead, address, count⟩ alike
    dsimp only
    rw [announced.memory.read_eq]
    cases (report ⟨.preRead, address, count⟩ other).memory.read count address with
    | error fault => exact ⟨rfl, announced⟩
    | ok value => exact ⟨rfl, impartial _ announced⟩

theorem store_respects (impartial : Impartial report) (count : Nat) (address : Word)
    (value : BitVec (8 * count)) : Respects Alike (store report count address value) := by
  constructor
  intro bus other alike
  have written := alike.memory.write count address value
  rw [store, Action.perform_ofFunction, Action.perform_ofFunction]
  generalize bus.memory.write count address value = first at written
  generalize other.memory.write count address value = second at written
  cases written with
  | failed fault => exact ⟨rfl, alike⟩
  | made same => exact ⟨rfl, impartial _ (alike.withMemory same)⟩

/-- A write of a value that depends on memory, of which nobody is told. -/
theorem write_respects (count : Nat) (address : Word) (value : Memory → BitVec (8 * count))
    (agree : ∀ {memory other : Memory}, memory.Alike other → value memory = value other) :
    Respects Alike (Action.changeOr fun bus : Bus =>
      (bus.memory.write count address (value bus.memory)).map fun memory => { bus with memory }) := by
  refine .changeOr fun {bus other} alike => ?_
  rw [agree alike.memory]
  exact (alike.memory.write count address _).map alike.withMemory

theorem observe_respects (holder : Handle) (watch : Watch) :
    Respects Alike (observe holder watch) := by
  constructor
  intro bus other alike
  rw [observe, Action.perform_ofFunction, Action.perform_ofFunction]
  cases watch.complaint? with
  | some complaint => exact ⟨rfl, alike⟩
  | none =>
    -- The number that is handed out depends on the registry alone.
    have inserted := congrArg (·.insert holder watch) alike.registry
    exact ⟨congrArg (fun inserted => Except.ok inserted.1) inserted, alike.memory,
      congrArg Prod.snd inserted, alike.watchers, alike.now, alike.ignorant⟩

/-- No reply but one that lists the pages tells buses apart that are alike. -/
theorem perform_respects (impartial : Impartial report) {operation : Operation}
    (different : operation ≠ .pages) : Respects Alike (perform report operation) := by
  cases operation with
  | read width address tracked =>
    cases tracked with
    | false => exact (Respects.ask fun same => same.memory.read_eq _ _).bind fun _ => .pure _
    | true => exact (load_respects impartial _ _).bind fun _ => .pure _
  | write width address value tracked =>
    cases tracked with
    | false =>
      exact (write_respects width.bytes address (fun _ => value) fun _ => rfl).bind fun _ => .pure _
    | true => exact (store_respects impartial _ _ _).bind fun _ => .pure _
  | addWord address value =>
    let sum (memory : Memory) : Word := (memory.readWord address).toOption.getD 0 + value
    have agree {memory other : Memory} (same : memory.Alike other) : sum memory = sum other := by
      simp only [sum, same.readWord_eq]
    exact (write_respects 4 address sum agree).bind fun _ => .pure _
  | putChunk address bytes =>
    constructor
    intro bus other alike
    obtain ⟨count, stored⟩ := alike.memory.putChunk address bytes
    rw [perform, Action.perform_ofFunction, Action.perform_ofFunction]
    dsimp only
    rw [count]
    exact ⟨rfl, alike.withMemory stored⟩
  | chunk address count =>
    exact (Respects.ask fun same => by rw [same.memory.chunk_eq]).bind fun _ => .pure _
  | pages => exact absurd rfl different
  | extent =>
    refine .ask fun same => ?_
    rw [same.memory.size, Memory.pageSize, same.memory.pageBits, Memory.pageSize]
  | observe holder watch => exact (observe_respects holder watch).bind fun _ => .pure _
  | unobserve id =>
    constructor
    intro bus other alike
    have removed := congrArg (·.remove id) alike.registry
    let reply (removed : Bool × Registry) : Except Fault Reply := .ok (.removed removed.1)
    exact ⟨congrArg reply removed, alike.memory, congrArg Prod.snd removed, alike.watchers,
      alike.now, alike.ignorant⟩

/-- An observer that does not go by the pages does the same on both buses. -/
theorem follow_alike (impartial : Impartial report) (alike : bus.Alike other) (holder : Handle)
    {reaction : Reaction} (ignorant : reaction.IgnoresPages) :
    (bus.follow report holder reaction).1 = (other.follow report holder reaction).1 ∧
      (bus.follow report holder reaction).2.Alike (other.follow report holder reaction).2 := by
  induction reaction generalizing bus other with
  | finish kept => exact ⟨rfl, alike⟩
  | operate operation next ih =>
    obtain ⟨blind, later⟩ := ignorant
    rw [follow, follow]
    by_cases pages : operation = .pages
    · subst pages
      -- The lists may differ, but what comes next does not.
      have same (reply otherReply : Except Fault Reply) : next reply = next otherReply :=
        blind rfl reply otherReply
      dsimp only
      rw [same ((perform report .pages).perform bus).1 ((perform report .pages).perform other).1]
      exact ih _ (alike.note _ _) (later _)
    · obtain ⟨reply, reached, otherReached, performed, otherPerformed, kept⟩ :=
        (perform_respects impartial pages).cases alike
      rw [performed, otherPerformed]
      exact ih reply (kept.note _ _) (later reply)

theorem notify_alike (impartial : Impartial report) (alike : bus.Alike other) (subscription : Nat)
    (holder : Handle) (touch : Touch) :
    (bus.notify report subscription holder touch).Alike
      (other.notify report subscription holder touch) := by
  have present : bus.watchers[holder]? = other.watchers[holder]? := by rw [alike.watchers]
  unfold notify
  rw [present]
  split
  · exact alike
  · next before notified found =>
    have ignorant := alike.ignorant _ (Array.mem_of_getElem? (present.trans found))
    obtain ⟨kept, followed⟩ := follow_alike impartial alike holder
      (ignorant before subscription touch)
    dsimp only
    rw [kept]
    exact followed.setWatcher holder ignorant
  · next gpu _ =>
    obtain ⟨same, heard⟩ := gpu.hear_alike alike.memory touch
    dsimp only
    rw [same]
    exact (alike.withMemory heard).setWatcher holder trivial
  · next timer _ =>
    have heard : (timer.hear bus.now bus.memory touch).Alike
        (timer.hear other.now other.memory touch) := by
      rw [alike.now]
      exact timer.hear_alike other.now alike.memory touch
    exact alike.withMemory heard

theorem deliver_alike (impartial : Impartial report) (alike : bus.Alike other)
    (subscription : Subscription) (touch : Touch) :
    (bus.deliver report subscription touch).Alike (other.deliver report subscription touch) := by
  rw [deliver, deliver]
  exact (notify_alike impartial (alike.note _ _) subscription.id subscription.holder touch).note _ _

end Reporters

/-- A report keeps a relation between buses that is kept by telling whoever may be told. -/
theorem reportWithin_related {related : Bus → Bus → Prop} (told : Subscription → Prop)
    (registry : ∀ {bus other}, related bus other → bus.registry = other.registry)
    (held : ∀ {bus other}, related bus other →
      ∀ subscription ∈ other.registry.subscriptions, told subscription)
    (deliver : ∀ {report : Reporter},
      (∀ touch {bus other}, related bus other → related (report touch bus) (report touch other)) →
      ∀ {bus other}, related bus other → ∀ {subscription}, told subscription → ∀ touch,
        related (bus.deliver report subscription touch) (other.deliver report subscription touch))
    (level : Nat) (busy : List Handle) (touch : Touch) {bus other : Bus}
    (same : related bus other) :
    related (reportWithin level busy touch bus) (reportWithin level busy touch other) := by
  induction level generalizing busy touch bus other with
  | zero => exact same
  | succ level ih =>
    have known : ∀ subscription ∈ other.registry.hearing touch, told subscription :=
      fun subscription member => held same subscription (List.mem_filter.mp member).1
    rw [reportWithin, reportWithin, registry same]
    -- Both go through the same list, and stay related from one reaction to the next.
    generalize other.registry.hearing touch = list at known
    induction list generalizing bus other with
    | nil => exact same
    | cons subscription rest next =>
      obtain ⟨here, later⟩ := List.forall_mem_cons.mp known
      rw [List.foldl_cons, List.foldl_cons]
      refine next ?_ later
      split
      · exact same
      · exact deliver (fun touch _ _ same => ih _ touch same) same here touch

theorem reportWithin_impartial (level : Nat) (busy : List Handle) :
    Impartial (reportWithin level busy) := by
  intro touch bus other alike
  exact reportWithin_related (fun _ => True) Alike.registry (fun _ _ _ => trivial)
    (fun impartial _ _ alike subscription _ touch => deliver_alike impartial alike subscription touch)
    level busy touch alike

theorem report_impartial (busy : List Handle) : Impartial (report busy) := by
  intro touch bus other alike
  -- As many watchers, so as many levels.
  rw [report, report, alike.watchers]
  exact reportWithin_impartial _ busy touch alike

end Bus

end ArmBoard
