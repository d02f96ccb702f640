import ArmBoard.Proofs.Bus.Custody
import ArmBoard.Proofs.Execution.Trait
import ArmBoard.Proofs.Machine.Cycle

/-!
# Whose the subscriptions are

The subscriptions on a machine belong to its peripherals or to its host.
Peripherals are put to use late and may refuse, cycles fail, earlier states
are brought back, and the host can end any subscription. An account is kept
of what the host has subscribed and of what each peripheral was issued when it
was put to use. The machine's own records agree with it at any time, so that
detaching the peripherals leaves exactly what is the host's.
-/
namespace ArmBoard

open ArmBoard.Action (Follows Erases)

/-- The subscriptions that watches are issued, if the first of them gets the given number. -/
def Registry.issue (holder : Handle) : Nat → List Watch → List Subscription
  | _, [] => []
  | number, watch :: rest => ⟨number, watch, holder⟩ :: issue holder (number + 1) rest

theorem Registry.ids_issue (holder : Handle) (number : Nat) (watches : List Watch) :
    (issue holder number watches).map (·.id) = List.range' number watches.length := by
  induction watches generalizing number with
  | nil => rfl
  | cons watch rest ih =>
    rw [issue, List.map_cons, ih, List.length_cons, List.range'_succ]

theorem Registry.nodup_ids_issue (holder : Handle) (number : Nat) (watches : List Watch) :
    ((issue holder number watches).map (·.id)).Nodup := by
  rw [ids_issue]
  exact List.nodup_range'

theorem Registry.watches_issue (holder : Handle) (number : Nat) (watches : List Watch) :
    (issue holder number watches).map (·.watch) = watches := by
  induction watches generalizing number with
  | nil => rfl
  | cons watch rest ih => rw [issue, List.map_cons, ih]

theorem Registry.mem_issue {holder : Handle} {number : Nat} {watches : List Watch}
    {subscription : Subscription} (member : subscription ∈ issue holder number watches) :
    subscription.holder = holder ∧ number ≤ subscription.id ∧
      subscription.id < number + watches.length := by
  induction watches generalizing number with
  | nil => cases member
  | cons watch rest ih =>
    rcases List.mem_cons.mp member with rfl | later
    · simp
    · obtain ⟨held, above, below⟩ := ih later
      refine ⟨held, ?_, ?_⟩
      · omega
      · rw [List.length_cons]
        omega

/-- A registry in which a peripheral has been issued what it asks to watch. -/
def Registry.issued (registry : Registry) (holder : Handle) (watches : List Watch) : Registry where
  nextId := registry.nextId + watches.length
  subscriptions := registry.subscriptions ++ issue holder registry.nextId watches

theorem Registry.Numbered.issued {registry : Registry} (numbered : registry.Numbered)
    (holder : Handle) (watches : List Watch) : (registry.issued holder watches).Numbered := by
  have ascending := List.pairwise_lt_range' (s := registry.nextId) (n := watches.length)
  rw [← ids_issue holder, List.pairwise_map] at ascending
  refine ⟨List.pairwise_append.mpr ⟨numbered.ascending, ascending, ?_⟩, ?_⟩
  · intro old member new added
    exact Nat.lt_of_lt_of_le (numbered.below old member) (mem_issue added).2.1
  · intro subscription member
    rcases List.mem_append.mp member with old | new
    · exact Nat.lt_add_right _ (numbered.below subscription old)
    · exact (mem_issue new).2.2

theorem Registry.issued_nil (registry : Registry) (holder : Handle) :
    registry.issued holder [] = registry := by
  rw [issued, issue, List.append_nil]
  rfl

theorem Registry.issued_cons (registry : Registry) (holder : Handle) (watch : Watch)
    (watches : List Watch) : registry.issued holder (watch :: watches) =
      (registry.insert holder watch).2.issued holder watches := by
  simp [issued, insert, issue, Nat.add_assoc, Nat.add_comm 1]

theorem Registry.handsOut_issued (registry : Registry) (holder : Handle) (watches : List Watch) :
    ∃ numbers, registry.HandsOut numbers (registry.issued holder watches) := by
  induction watches generalizing registry with
  | nil =>
    rw [issued_nil]
    exact ⟨[], .nothing registry⟩
  | cons watch rest ih =>
    obtain ⟨numbers, later⟩ := ih (registry.insert holder watch).2
    rw [issued_cons]
    exact ⟨_, (HandsOut.subscribed registry holder watch).trans later⟩

/-- A holder that is on the bus may be issued subscriptions. -/
theorem Bus.Tended.issued {bus : Bus} {holder : Handle} {watches : List Watch}
    (known : watches ≠ [] → holder < bus.watchers.size) :
    Tended bus { bus with registry := bus.registry.issued holder watches } where
  kept staffed := by
    refine ⟨⟨⟨?_, staffed.reactions⟩, fun _ _ => trivial⟩, rfl,
      bus.registry.handsOut_issued holder watches⟩
    intro subscription member
    rcases List.mem_append.mp member with old | new
    · exact staffed.held subscription old
    · rw [(Registry.mem_issue new).1]
      refine known ?_
      rintro rfl
      cases new
  watches := sameWatches_of_eq rfl

/-- What is left without some subscriptions is left without those that are issued as well. -/
theorem Registry.Numbered.without_issued {registry : Registry} (numbered : registry.Numbered)
    (holder : Handle) (watches : List Watch) {ids later : List Nat}
    (listed : ∀ id, id ∈ later ↔
      id ∈ (issue holder registry.nextId watches).map (·.id) ∨ id ∈ ids) :
    (registry.issued holder watches).without later = registry.without ids := by
  have gone : (issue holder registry.nextId watches).filter (·.id ∉ later) = [] := by
    refine List.filter_eq_nil_iff.mpr fun subscription member => ?_
    rw [decide_eq_true_eq, not_not, listed]
    exact Or.inl (List.mem_map_of_mem member)
  have others : registry.subscriptions.filter (·.id ∉ later) =
      registry.subscriptions.filter (·.id ∉ ids) := by
    refine List.filter_congr fun subscription member => ?_
    have old := numbered.below subscription member
    have unissued : subscription.id ∉ (issue holder registry.nextId watches).map (·.id) := by
      rw [ids_issue, List.mem_range'_1]
      omega
    rw [decide_eq_decide, listed, or_iff_right unissued]
  rw [without, Registry.issued, List.filter_append, gone, others, List.append_nil, without]

theorem Bus.perform_observe {watch : Watch} (fit : watch.complaint? = none) (holder : Handle)
    (bus : Bus) : (observe holder watch).perform bus =
      (.ok bus.registry.nextId,
        { bus with registry := (bus.registry.insert holder watch).2 }) := by
  rw [observe, Action.perform_ofFunction, fit]
  rfl

theorem Machine.perform_observeAll (holder : Handle) {watches : List Watch}
    (fit : ∀ watch ∈ watches, watch.complaint? = none) (bus : Bus) :
    (observeAll holder watches).perform bus =
      (.ok ((Registry.issue holder bus.registry.nextId watches).map (·.id)),
        { bus with registry := bus.registry.issued holder watches }) := by
  induction watches generalizing bus with
  | nil =>
    rw [observeAll, Action.perform_pure, Registry.issued_nil]
    rfl
  | cons watch rest ih =>
    obtain ⟨here, later⟩ := List.forall_mem_cons.mp fit
    rw [observeAll, Action.perform_bind, Bus.perform_observe here]
    dsimp only
    rw [Action.perform_bind, ih later, Registry.issued_cons]
    rfl

namespace Core

def tending : Conduct Core where
  admits _ := True
  keeps core reached := core.bus.Tended reached.bus
  refl core := .refl core.bus
  trans := .trans

/-- Nothing but accesses to memory reaches the bus. -/
def tended : Trait where
  holds action := action.Follows tending False
  pure := .pure
  fail _ := .fail trivial
  bind := .bind
  readRegister _ := .ask fun _ => trivial
  writeRegister number value := by
    refine .changeOr (fun _ => trivial) (Or.inr ?_)
    intro core next written
    split at written
    · cases written
      exact tending.refl core
    · cases written
  pc := .ask fun _ => trivial
  setPc _ := .change (Or.inr fun core => tending.refl core)
  status := .ask fun _ => trivial
  setStatus _ := .change (Or.inr fun core => tending.refl core)
  savedStatus := .ask fun _ => trivial
  setSavedStatus status := by
    refine .changeOr (fun _ => trivial) (Or.inr ?_)
    intro core next saved
    cases set : core.cpu.setSavedStatus status with
    | error fault =>
      rw [set] at saved
      cases saved
    | ok cpu =>
      rw [set] at saved
      cases saved
      exact tending.refl core
  load count address := (Bus.load_follows [] count address).liftPart (fun _ => trivial)
    fun _ _ => id
  store count address value := (Bus.store_follows [] count address value).liftPart
    (fun _ => trivial) fun _ _ => id

end Core

namespace Machine

variable {machine : Machine}

def tending : Conduct Machine where
  admits _ := True
  keeps machine reached := machine.bus.Tended reached.bus ∧
    reached.attachments = machine.attachments
  refl machine := ⟨.refl machine.bus, rfl⟩
  trans first second := ⟨first.1.trans second.1, second.2.trans first.2⟩

/-- Fetches what is missing, and executes the oldest word. -/
def executeNext : Action Machine Unit := do
  let queued ← Action.ask fun machine : Machine => .ok machine.fetched.length
  fillQueue (fetchDepth - queued)
  let ahead ← onCore Core.pc
  let word ← takeFetched
  let branched ← executeWord (ahead - pipelineDistance) word
  Action.change fun machine : Machine =>
    { machine with
      fetched := if branched then [] else machine.fetched
      cycles := machine.cycles + 1 }

theorem cycle_eq : cycle = (do stepPeripherals; executeNext) := rfl

theorem onCore_follows {α : Type} {action : Action Core α}
    (follows : action.Follows Core.tending False) : (onCore action).Follows tending False :=
  follows.liftPart (fun _ => trivial) fun _ _ kept => ⟨kept, rfl⟩

theorem onBus_follows {α : Type} {action : Action Bus α}
    (follows : action.Follows Bus.tending False) : (onBus action).Follows tending False :=
  onCore_follows (follows.liftPart (fun _ => trivial) fun _ _ => id)

theorem executeNext_follows : executeNext.Follows tending False := by
  have fetched : fetch.Follows tending False := by
    refine .of_keeps (fun _ => trivial) fun machine => ?_
    rw [fetch, Action.perform_ofFunction]
    split <;> exact tending.refl machine
  have taken : takeFetched.Follows tending False := by
    refine .of_keeps (fun _ => trivial) fun machine => ?_
    rw [takeFetched, Action.perform_ofFunction]
    split <;> exact tending.refl machine
  refine .bind (.ask fun _ => trivial) fun queued => ?_
  refine .bind (follows_fillQueue fetched _) fun _ => ?_
  refine .bind (onCore_follows Core.tended.pc) fun ahead => ?_
  refine .bind taken fun word => ?_
  refine .bind ?_ fun branched => .change (Or.inr fun machine => tending.refl machine)
  refine .mapFault (.bind (.ask fun _ => trivial) fun opcode => ?_) fun _ => trivial
  have executed : Core.tended.holds (Core.execute opcode) := Core.execute_holds opcode
  exact onCore_follows executed

/-- Puts an attachment to use if need be, and records its subscriptions. -/
def putToUse (index : Nat) (attachment : Attachment) : Action Machine Unit := do
  let started ← onBus (startAttachment attachment)
  Action.change fun machine : Machine =>
    { machine with attachments := machine.attachments.set index started }

theorem stepAttachment_eq (index : Nat) (attachment : Attachment) :
    stepAttachment index attachment = (do
      putToUse index attachment
      onBus (Bus.step attachment.holder)) := by
  simp [stepAttachment, putToUse]

/-- What has been put to use stays as it is. -/
theorem perform_putToUse_some (index : Nat) {attachment : Attachment} {ids : List Nat}
    (used : attachment.subscriptions? = some ids) (machine : Machine) :
    (putToUse index attachment).perform machine =
      (.ok (), { machine with attachments := machine.attachments.set index attachment }) := by
  rw [putToUse, startAttachment, used]
  rfl

/-- A peripheral that is initialized is issued what it asks to watch, any other one nothing. -/
theorem perform_putToUse_none (index : Nat) {attachment : Attachment}
    (unused : attachment.subscriptions? = none) (machine : Machine) :
    (putToUse index attachment).perform machine =
      match (Bus.start attachment.holder).perform machine.bus with
      | (.error fault, bus) => (.error fault, { machine with bus })
      | (.ok watches, bus) =>
        (.ok (), { machine with
          bus := { bus with registry := bus.registry.issued attachment.holder watches }
          attachments := machine.attachments.set index
            ⟨attachment.holder, some ((Registry.issue attachment.holder bus.registry.nextId
              watches).map (·.id))⟩ }) := by
  obtain ⟨_, _, own⟩ := Bus.start_cases attachment.holder machine.bus
  rw [putToUse, Action.perform_bind, onBus, onCore, Core.onBus, Action.perform_onPart,
    Action.perform_onPart, startAttachment, unused]
  dsimp only
  rw [Action.perform_bind]
  rcases started : (Bus.start attachment.holder).perform machine.bus with ⟨fault | watches, bus⟩
  · rfl
  · rw [started] at own
    have fit : ∀ watch ∈ watches, watch.complaint? = none := by
      rw [(own watches rfl).1]
      exact Bus.fit_of_mem_watchesOf
    dsimp only
    rw [Action.perform_bind, perform_observeAll attachment.holder fit]
    rfl

end Machine

/-- A peripheral on a machine and, once it has been initialized, the subscriptions it was issued. -/
structure Holding where
  holder : Handle
  issued? : Option (List Subscription)

namespace Holding

/-- What the machine records of a holding. -/
def attachment (holding : Holding) : Attachment :=
  ⟨holding.holder, holding.issued?.map fun issued => issued.map (·.id)⟩

def issued (holding : Holding) : List Subscription := holding.issued?.getD []

end Holding

/-- A machine and an account of its subscriptions, which has no effect on the machine. -/
structure Account where
  machine : Machine
  /-- What the host and its observers have subscribed and not ended. -/
  host : List Subscription
  holdings : List Holding

namespace Account

variable {α β : Type}

/-- All subscriptions that have ever been issued to the peripherals that are attached. -/
def issued (account : Account) : List Subscription := account.holdings.flatMap (·.issued)

def ids (account : Account) : List Nat := account.issued.map (·.id)

/-- Performs an action in which only the host and its observers subscribe and unsubscribe. -/
def byHost (action : Action Machine α) : Action Account α := .ofFunction fun account =>
  let (outcome, machine) := action.perform account.machine
  let registry := account.machine.bus.registry
  (outcome, { account with machine, host := registry.follow machine.bus.registry account.host })

/-- What a peripheral has been issued once an attempt has been made to put it to use. -/
def holdingsAfter (index : Nat) (attachment : Attachment) (account : Account) : List Holding :=
  let bus := account.machine.bus
  match attachment.subscriptions?, ((Bus.start attachment.holder).perform bus).1 with
  | none, .ok watches =>
      let issued := Registry.issue attachment.holder bus.registry.nextId watches
      account.holdings.set index ⟨attachment.holder, some issued⟩
  | _, _ => account.holdings

/-- Puts a peripheral to use if need be. If it is initialized now, it is issued what it asks for. -/
def putToUse (index : Nat) (attachment : Attachment) : Action Account Unit :=
  .ofFunction fun account =>
    let (outcome, machine) := (Machine.putToUse index attachment).perform account.machine
    (outcome, { account with machine, holdings := account.holdingsAfter index attachment })

def stepFrom : Nat → List Attachment → Action Account Unit
  | _, [] => pure ()
  | index, attachment :: rest => do
      putToUse index attachment
      byHost (Machine.onBus (Bus.step attachment.holder))
      stepFrom (index + 1) rest

/-- A cycle of the machine with an account of it. -/
def cycle : Action Account Unit := do
  let attachments ← Action.ask fun account : Account => .ok account.machine.attachments
  stepFrom 0 attachments
  byHost Machine.executeNext

def attach (holder : Handle) (account : Account) : Account :=
  { account with
    machine := account.machine.attach holder
    holdings := account.holdings ++ [⟨holder, none⟩] }

def detach (account : Account) : Account :=
  { account with machine := account.machine.detach, holdings := [] }

/-- The machine is put back to an earlier state, and the account to that of then. -/
def restore (earlier account : Account) : Account :=
  { earlier with machine := account.machine.restore earlier.machine.snapshot }

theorem byHost_erases (action : Action Machine α) :
    Erases (·.machine) (byHost action) action := fun _ => ⟨rfl, rfl⟩

theorem putToUse_erases (index : Nat) (attachment : Attachment) :
    Erases (·.machine) (putToUse index attachment) (Machine.putToUse index attachment) :=
  fun _ => ⟨rfl, rfl⟩

theorem stepFrom_erases (index : Nat) (attachments : List Attachment) :
    Erases (·.machine) (stepFrom index attachments) (Machine.stepFrom index attachments) := by
  induction attachments generalizing index with
  | nil => exact fun _ => ⟨rfl, rfl⟩
  | cons attachment rest ih =>
    rw [Machine.stepFrom, Machine.stepAttachment_eq, bind_assoc]
    refine .bind (putToUse_erases index attachment) fun _ => ?_
    exact .bind (byHost_erases _) fun _ => ih (index + 1)

theorem cycle_erases : Erases (·.machine) cycle Machine.cycle := by
  rw [Machine.cycle_eq, Machine.stepPeripherals, bind_assoc]
  refine .bind (.ask _ fun machine : Machine => .ok machine.attachments) fun attachments => ?_
  exact .bind (stepFrom_erases 0 attachments) fun _ => byHost_erases _

/-- What may happen to a machine that begins without peripherals, with an account of it. -/
inductive History (start : Machine) : Account → Prop
  | start : History start ⟨start, start.bus.registry.subscriptions, []⟩
  | attached {account : Account} (history : History start account) (holder : Handle) :
      History start (account.attach holder)
  | cycled {account : Account} (history : History start account) :
      History start (cycle.perform account).2
  /-- The host observes or unobserves, or makes an access that observers hear of. -/
  | operated {account : Account} (history : History start account) {operation : Operation}
      (known : ∀ holder ∈ operation.holder?, holder < account.machine.bus.watchers.size) :
      History start ((byHost (Machine.onBus
        (Bus.perform (Bus.report []) operation))).perform account).2
  /-- Time passes, a program is loaded, registers are set. -/
  | edited {account : Account} (history : History start account) {machine : Machine}
      (attachments : machine.attachments = account.machine.attachments)
      (registry : machine.bus.registry = account.machine.bus.registry)
      (watchers : machine.bus.watchers = account.machine.bus.watchers) :
      History start { account with machine }
  | restored {account earlier : Account} (history : History start account)
      (snapshot : History start earlier) : History start (earlier.restore account)
  | detached {account : Account} (history : History start account) : History start account.detach

/-- Machine and account agree. -/
structure Sound (start : Machine) (account : Account) : Prop where
  staffed : account.machine.bus.Staffed
  size : account.machine.bus.watchers.size = start.bus.watchers.size
  numbered : account.machine.bus.registry.Numbered
  watches : ∀ holder, account.machine.bus.watchesOf holder = start.bus.watchesOf holder
  attachments : account.machine.attachments = account.holdings.map (·.attachment)
  own : ∀ holding ∈ account.holdings, ∀ issued, holding.issued? = some issued →
    issued.map (·.watch) = start.bus.watchesOf holding.holder ∧
      ∀ subscription ∈ issued, subscription.holder = holding.holder
  nodup : account.ids.Nodup
  below : ∀ id ∈ account.ids, id < account.machine.bus.registry.nextId
  genuine : ∀ subscription ∈ account.machine.bus.registry.subscriptions,
    ∀ issued ∈ account.issued, subscription.id = issued.id → subscription = issued
  host : account.host = account.machine.bus.registry.without account.ids

namespace Sound

variable {start : Machine} {account : Account}

/-- Between two steps of the account only the host may have been busy. -/
theorem byHost (sound : Sound start account) {action : Action Machine α}
    (kept : Machine.tending.keeps account.machine (action.perform account.machine).2) :
    Sound start ((Account.byHost action).perform account).2 := by
  obtain ⟨tended, attachments⟩ := kept
  have kept := tended.kept sound.staffed
  have watches := fun holder => (tended.watches holder).trans (sound.watches holder)
  obtain ⟨_, handsOut⟩ := kept.keeps
  have evolved := handsOut.evolved sound.numbered
  obtain ⟨keep, new, parts, above⟩ := evolved.parts
  refine ⟨kept.governs.staffed, kept.size.trans sound.size, evolved.numbered, watches,
    attachments.trans sound.attachments, sound.own, sound.nodup, ?_, ?_, ?_⟩
  · exact fun id member => Nat.lt_of_lt_of_le (sound.below id member) evolved.later
  · intro subscription member issued listed same
    rw [show ((Account.byHost action).perform account).2.machine.bus.registry.subscriptions =
      _ from parts] at member
    rcases List.mem_append.mp member with old | added
    · exact sound.genuine subscription (List.mem_filter.mp old).1 issued listed same
    · -- New numbers are larger than all that have been issued.
      have early := sound.below issued.id (List.mem_map_of_mem listed)
      have late := above subscription added
      omega
  · have followed := evolved.follow_without sound.numbered sound.below
    rw [← sound.host] at followed
    exact followed

theorem ids_recorded (sound : Sound start account) :
    (account.machine.attachments.flatMap fun attachment => attachment.subscriptions?.getD []) =
      account.ids := by
  rw [sound.attachments, List.flatMap_map, ids, issued, List.map_flatMap]
  congr 1
  funext holding
  cases holding with
  | mk holder issued? => cases issued? <;> rfl

/-- A bus that a peripheral has changed without subscribing. -/
theorem withBus (sound : Sound start account) {bus : Bus}
    (tended : account.machine.bus.Tended bus)
    (registry : bus.registry = account.machine.bus.registry) :
    Sound start { account with machine := { account.machine with bus } } := by
  have kept := tended.kept sound.staffed
  obtain ⟨_, size, numbered, watches, attachments, own, nodup, below, genuine, host⟩ := sound
  rw [← registry] at numbered below genuine host
  exact ⟨kept.governs.staffed, kept.size.trans size, numbered,
    fun holder => (tended.watches holder).trans (watches holder), attachments, own, nodup, below,
    genuine, host⟩

theorem issued_perm {done todo : List Holding} {holder : Handle}
    (split : account.holdings = done ++ ⟨holder, none⟩ :: todo) (fresh : List Subscription) :
    ((done ++ ⟨holder, some fresh⟩ :: todo).flatMap (·.issued)).Perm (fresh ++ account.issued) := by
  have before : account.issued = done.flatMap (·.issued) ++ todo.flatMap (·.issued) := by
    rw [Account.issued, split]
    simp [Holding.issued]
  rw [before, List.flatMap_append, List.flatMap_cons]
  exact List.perm_append_comm_assoc _ _ _

/-- A peripheral that is initialized is issued subscriptions with numbers that nobody has had. -/
theorem issue (sound : Sound start account) {done todo : List Holding} {holder : Handle}
    (split : account.holdings = done ++ ⟨holder, none⟩ :: todo) {watches : List Watch}
    (own : watches = start.bus.watchesOf holder)
    (known : watches ≠ [] → holder < account.machine.bus.watchers.size) :
    let registry := account.machine.bus.registry
    let holding : Holding := ⟨holder, some (Registry.issue holder registry.nextId watches)⟩
    Sound start
      { machine := { account.machine with
          bus := { account.machine.bus with registry := registry.issued holder watches }
          attachments := account.machine.attachments.set done.length holding.attachment }
        host := account.host
        holdings := done ++ holding :: todo } := by
  intro registry holding
  have perm := issued_perm split (Registry.issue holder registry.nextId watches)
  have ids := perm.map (·.id)
  rw [List.map_append] at ids
  have numbered := sound.numbered.issued holder watches
  have staffed := ((Bus.Tended.issued known).kept sound.staffed).governs.staffed
  refine ⟨staffed, sound.size, numbered, sound.watches, ?_, ?_, ?_, ?_, ?_, ?_⟩
  · rw [sound.attachments, split]
    simp
  · intro other member issued mine
    rcases List.mem_append.mp member with first | second
    · exact sound.own other (split ▸ List.mem_append_left _ first) issued mine
    · rcases List.mem_cons.mp second with rfl | last
      · obtain rfl := Option.some.inj mine
        exact ⟨(Registry.watches_issue _ _ _).trans own, fun subscription new =>
          (Registry.mem_issue new).1⟩
      · exact sound.own other (split ▸ List.mem_append_right _ (List.mem_cons_of_mem _ last))
          issued mine
  · refine ids.nodup_iff.mpr (List.nodup_append.mpr
      ⟨Registry.nodup_ids_issue _ _ _, sound.nodup, ?_⟩)
    -- The numbers of the new subscriptions begin where those given so far end.
    rintro _ new id old rfl
    obtain ⟨subscription, member, rfl⟩ := List.mem_map.mp new
    have late := (Registry.mem_issue member).2.1
    exact Nat.not_lt_of_le late (sound.below _ old)
  · intro id member
    rcases List.mem_append.mp (ids.mem_iff.mp member) with new | old
    · obtain ⟨subscription, issued, rfl⟩ := List.mem_map.mp new
      exact (Registry.mem_issue issued).2.2
    · exact Nat.lt_add_right _ (sound.below id old)
  · intro subscription member issued listed same
    rcases List.mem_append.mp (perm.mem_iff.mp listed) with issuedNow | issuedBefore
    · exact numbered.eq_of_id_eq member (List.mem_append_right _ issuedNow) same
    · rcases List.mem_append.mp member with old | new
      · exact sound.genuine subscription old issued issuedBefore same
      · have early := sound.below issued.id (List.mem_map_of_mem issuedBefore)
        have late : account.machine.bus.registry.nextId ≤ subscription.id :=
          (Registry.mem_issue new).2.1
        omega
  · -- The host gets nothing of what is issued.
    refine sound.host.trans (sound.numbered.without_issued holder watches fun id => ?_).symm
    rw [← List.mem_append]
    exact ids.mem_iff

theorem putToUse (sound : Sound start account) {done todo : List Holding} {holding : Holding}
    (split : account.holdings = done ++ holding :: todo) :
    Sound start ((Account.putToUse done.length holding.attachment).perform account).2 ∧
    ∃ used, ((Account.putToUse done.length holding.attachment).perform account).2.holdings =
      done ++ used :: todo := by
  obtain ⟨holder, issued?⟩ := holding
  rw [Account.putToUse, Action.perform_ofFunction]
  dsimp only
  cases issued? with
  | some issued =>
    -- Setting an attachment to what it is changes nothing.
    have same : account.machine.attachments.set done.length
        (Holding.attachment ⟨holder, some issued⟩) = account.machine.attachments := by
      rw [sound.attachments, split]
      simp
    rw [Machine.perform_putToUse_some _ rfl, same]
    exact ⟨sound, _, split⟩
  | none =>
    obtain ⟨tended, registry, own⟩ := Bus.start_cases holder account.machine.bus
    rw [Machine.perform_putToUse_none _ rfl]
    simp only [holdingsAfter, Holding.attachment, Option.map_none]
    rcases started : (Bus.start holder).perform account.machine.bus with ⟨fault | watches, bus⟩
    · rw [started] at tended registry
      exact ⟨sound.withBus tended registry, _, split⟩
    · rw [started] at tended registry own
      obtain ⟨asked, known⟩ := own watches rfl
      dsimp only at registry tended ⊢
      have size := (tended.kept sound.staffed).size
      have issued := (sound.withBus tended registry).issue split
        (asked.trans (sound.watches holder)) (size ▸ known)
      rw [split, List.set_append_right _ _ (Nat.le_refl _), Nat.sub_self, List.set_cons_zero]
      dsimp only at issued
      rw [registry] at issued ⊢
      exact ⟨issued, _, rfl⟩

/-- A sequence stops where its first part has failed, or goes on from there. -/
theorem bind {action : Action Account α} {next : α → Action Account β}
    (first : Sound start (action.perform account).2)
    (second : ∀ value reached, action.perform account = (.ok value, reached) →
      Sound start reached → Sound start ((next value).perform reached).2) :
    Sound start ((action >>= next).perform account).2 := by
  rw [Action.perform_bind]
  rcases performed : action.perform account with ⟨fault | value, reached⟩
  · rw [performed] at first
    exact first
  · rw [performed] at first
    exact second value reached performed first

theorem stepFrom (sound : Sound start account) {done todo : List Holding}
    (split : account.holdings = done ++ todo) :
    Sound start ((Account.stepFrom done.length (todo.map (·.attachment))).perform account).2 := by
  induction todo generalizing account done with
  | nil => exact sound
  | cons holding rest ih =>
    obtain ⟨started, used, holdings⟩ := sound.putToUse split
    -- Whether it is put to use or not, the peripheral keeps its place before the rest.
    refine bind started fun _ between put started => ?_
    rw [put] at holdings
    have kept := (Machine.onBus_follows (Bus.step_follows holding.holder)).keeps between.machine
    refine bind (started.byHost kept) fun _ later acted stepped => ?_
    -- A step leaves the holdings alone, so the rest is still where it was.
    have same : later.holdings = between.holdings := congrArg (·.2.holdings) acted.symm
    have shape : later.holdings = (done ++ [used]) ++ rest := by
      rw [same, holdings, List.append_assoc, List.singleton_append]
    have rested := ih stepped shape
    rw [List.length_append] at rested
    exact rested

theorem cycle (sound : Sound start account) : Sound start (Account.cycle.perform account).2 := by
  refine bind sound fun attachments reached asked sound => ?_
  obtain ⟨rfl, rfl⟩ : account.machine.attachments = attachments ∧ account = reached := by
    simpa [Action.perform_ask] using asked
  rw [sound.attachments]
  refine bind (sound.stepFrom (List.nil_append _).symm) fun _ between _ stepped => ?_
  exact stepped.byHost (Machine.executeNext_follows.keeps between.machine)

theorem attach (sound : Sound start account) (holder : Handle) :
    Sound start (account.attach holder) := by
  have issued : (account.attach holder).issued = account.issued := by
    simp [Account.issued, Account.attach, Holding.issued]
  have ids : (account.attach holder).ids = account.ids := by
    rw [Account.ids, issued, Account.ids]
  refine ⟨sound.staffed, sound.size, sound.numbered, sound.watches, ?_, ?_, ?_, ?_, ?_, ?_⟩
  · simp [Account.attach, Machine.attach, sound.attachments, Holding.attachment]
  · intro holding member issued mine
    rcases List.mem_append.mp member with old | new
    · exact sound.own holding old issued mine
    · rw [List.mem_singleton.mp new] at mine
      cases mine
  · rw [ids]
    exact sound.nodup
  · rw [ids]
    exact sound.below
  · rw [issued]
    exact sound.genuine
  · rw [ids]
    exact sound.host

theorem perform_detach (sound : Sound start account) :
    account.machine.detach = { account.machine with
      attachments := []
      bus := { account.machine.bus with
        registry := ⟨account.machine.bus.registry.nextId, account.host⟩ } } := by
  rw [Machine.detach, sound.ids_recorded, sound.host]
  simp only [Bus.unobserve_all account.ids sound.numbered]

theorem detach (sound : Sound start account) : Sound start account.detach := by
  have fewer : account.host.Sublist account.machine.bus.registry.subscriptions := by
    rw [sound.host]
    exact List.filter_sublist
  rw [Account.detach, sound.perform_detach]
  refine ⟨⟨?_, sound.staffed.reactions⟩, sound.size, ⟨?_, ?_⟩, sound.watches, rfl, nofun,
    List.nodup_nil, nofun, fun _ _ => nofun, ?_⟩
  · exact fun subscription member => sound.staffed.held subscription (fewer.subset member)
  · exact sound.numbered.ascending.sublist fewer
  · exact fun subscription member => sound.numbered.below subscription (fewer.subset member)
  · exact (List.filter_eq_self.mpr fun _ _ => rfl).symm

theorem restore {earlier : Account} (sound : Sound start account) (before : Sound start earlier) :
    Sound start (earlier.restore account) := by
  have size := sound.size.trans before.size.symm
  -- The watchers stay those of now, while the registry and the records become those of then.
  refine ⟨⟨?_, sound.staffed.reactions⟩, sound.size, before.numbered, sound.watches,
    before.attachments, before.own, before.nodup, before.below, before.genuine, before.host⟩
  intro subscription member
  exact Nat.lt_of_lt_of_eq (before.staffed.held subscription member) size.symm

end Sound

/-- Whatever happens to a machine, its account is right. -/
theorem History.sound {start : Machine} {account : Account} (history : History start account)
    (unattended : start.attachments = []) (staffed : start.bus.Staffed)
    (grown : start.bus.registry.Grown) : Sound start account := by
  induction history with
  | start =>
    refine ⟨staffed, rfl, grown.numbered, fun _ => rfl, unattended, nofun, List.nodup_nil, nofun,
      fun _ _ => nofun, ?_⟩
    exact (List.filter_eq_self.mpr fun _ _ => rfl).symm
  | attached _ holder ih => exact ih.attach holder
  | cycled _ ih => exact ih.cycle
  | operated _ known ih => exact ih.byHost ⟨Bus.Tended.perform known, rfl⟩
  | edited _ attachments registry watchers ih =>
    obtain ⟨⟨held, reactions⟩, size, numbered, watches, recorded, own, nodup, below, genuine,
      host⟩ := ih
    have same := fun holder => (Bus.sameWatches_of_eq watchers holder).trans (watches holder)
    rw [← watchers] at held reactions size
    rw [← registry] at held numbered below genuine host
    exact ⟨⟨held, reactions⟩, size, numbered, same, attachments.trans recorded, own, nodup, below,
      genuine, host⟩
  | restored _ _ ih before => exact ih.restore before
  | detached _ ih => exact ih.detach

/--
Whatever happens to a machine that begins without peripherals: an attachment records subscriptions
if and only if its peripheral has been initialized, the numbers it records are those that it was
issued, for its own watches and to nobody else, and no other subscription has one of them. What
detaching leaves are the subscriptions of the host, in the order in which it made them. The account
that tells the two apart grows by what the host subscribes, loses what is ended, and leaves no trace
on the machine.
-/
theorem subscriptions_are_owned_exactly {start : Machine} {account : Account}
    (unattended : start.attachments = []) (staffed : start.bus.Staffed)
    (grown : start.bus.registry.Grown) (history : History start account) :
    Erases (·.machine) cycle Machine.cycle ∧
    (∀ holder watch, account.machine.bus.registry.follow
        (account.machine.bus.registry.insert holder watch).2 account.host =
      account.host ++ [⟨account.machine.bus.registry.nextId, watch, holder⟩]) ∧
    (∀ id, account.machine.bus.registry.follow
        (account.machine.bus.registry.remove id).2 account.host =
      account.host.filter (·.id != id)) ∧
    account.machine.attachments = account.holdings.map (·.attachment) ∧
    (account.machine.attachments.flatMap fun attachment =>
      attachment.subscriptions?.getD []).Nodup ∧
    (∀ holding ∈ account.holdings, ∀ issued, holding.issued? = some issued →
      issued.map (·.watch) = account.machine.bus.watchesOf holding.holder ∧
      ∀ subscription ∈ issued, subscription.holder = holding.holder ∧
        ∀ other ∈ account.machine.bus.registry.subscriptions,
          other.id = subscription.id → other = subscription) ∧
    account.machine.detach.bus.registry.subscriptions = account.host := by
  have sound := history.sound unattended staffed grown
  have present : ∀ subscription ∈ account.host,
      subscription ∈ account.machine.bus.registry.subscriptions := by
    intro subscription member
    rw [sound.host] at member
    exact (List.mem_filter.mp member).1
  refine ⟨cycle_erases, sound.numbered.follow_insert present, sound.numbered.follow_remove present,
    sound.attachments, ?_, ?_, ?_⟩
  · rw [sound.ids_recorded]
    exact sound.nodup
  · intro holding member issued mine
    obtain ⟨asked, held⟩ := sound.own holding member issued mine
    refine ⟨asked.trans (sound.watches holding.holder).symm, fun subscription among => ?_⟩
    refine ⟨held subscription among, fun other present same => ?_⟩
    refine sound.genuine other present subscription ?_ same
    refine List.mem_flatMap.mpr ⟨holding, member, ?_⟩
    rw [Holding.issued, mine]
    exact among
  · rw [sound.perform_detach]

/-- A machine with a timer and an observer, before either of them is put to use. -/
def untouched : Machine :=
  let machine := Machine.ofMemory (.blank 64 4)
  { machine with bus := { machine.bus with watchers := #[.timer (.create (some 16)), .script []] } }

theorem staffed_untouched : untouched.bus.Staffed := ⟨by decide, by simp [untouched]⟩

/-- The observer is subscribed, the timer is attached and put to use, the observer once more. -/
def watched : Account :=
  let first := Account.attach 0 ⟨untouched, [], []⟩
  let second := ((byHost (Machine.onBus (Bus.perform (Bus.report [])
    (.observe 1 ⟨0, 4, .ofList [.write]⟩)))).perform first).2
  let third := (cycle.perform second).2
  ((byHost (Machine.onBus (Bus.perform (Bus.report [])
    (.observe 1 ⟨8, 4, .ofList [.read]⟩)))).perform third).2

theorem history_watched : History untouched watched :=
  .operated (.cycled (.operated (.attached .start 0) (by decide))) (by decide)

/-- The timer was issued the second of three subscriptions; the other two remain without it. -/
theorem timer_has_the_second_subscription :
    watched.machine.attachments = [⟨0, some [2]⟩] ∧
    watched.machine.bus.registry.subscriptions.map (·.id) = [1, 2, 3] ∧
    watched.machine.detach.bus.registry.subscriptions.map (·.id) = [1, 3] := by
  obtain ⟨_, _, _, attachments, _, _, left⟩ :=
    subscriptions_are_owned_exactly rfl staffed_untouched .empty history_watched
  refine ⟨?_, ?_, ?_⟩
  · rw [attachments]
    rfl
  · rfl
  · rw [left]
    rfl

end Account

end ArmBoard
