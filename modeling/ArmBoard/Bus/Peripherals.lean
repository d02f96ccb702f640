import ArmBoard.Bus.Basic

/-!
# Peripherals on the bus

A peripheral is a watcher that is put to use once and then steps before every
instruction. It is busy meanwhile: what it does to memory is not reported back
to itself.
-/
namespace ArmBoard.Bus

/-- Puts a peripheral to use and returns what it wants to watch. A script wants nothing. -/
def start (holder : Handle) : Action Bus (List Watch) := .ofFunction fun bus =>
  match bus.watchers[holder]? with
  | some (.gpu gpu) =>
      let (outcome, gpu, memory) := gpu.start bus.memory
      (outcome, { bus with memory }.setWatcher holder (.gpu gpu))
  | some (.timer timer) =>
      let (outcome, timer) := timer.start bus.now
      (outcome, bus.setWatcher holder (.timer timer))
  | _ => (.ok [], bus)

/-- Changes the state of a graphics unit; other watchers are left alone. -/
def changeGpu (holder : Handle) (update : Gpu → Gpu) : Action Bus Unit := .change fun bus =>
  match bus.watchers[holder]? with
  | some (.gpu gpu) => bus.setWatcher holder (.gpu (update gpu))
  | _ => bus

/--
Answers a mail: the framebuffer is allocated, the channel is put in the read register for all to
see, and the unit is ready again in both directions.
-/
def answerMail (holder : Handle) (gpu : Gpu) (mail : Word) : Action Bus Unit := do
  Action.changeOr fun bus : Bus =>
    (gpu.allocate bus.memory mail).map fun (gpu, memory) =>
      { bus with memory }.setWatcher holder (.gpu gpu)
  let base ← Action.ask fun _ => gpu.mailboxBase
  store (report [holder]) 4 (base + Gpu.readOffset) (Gpu.channelOf mail)
  changeGpu holder fun gpu => { gpu with readReady := true, writeReady := true }
  Action.changeOr fun bus : Bus =>
    match bus.watchers[holder]? with
    | some (.gpu gpu) => (gpu.publishStatus bus.memory).map fun memory => { bus with memory }
    | _ => .ok bus

/-- One step of a peripheral: a waiting mail is answered, a counter is refreshed. -/
def step (holder : Handle) : Action Bus Unit := .ofFunction fun bus =>
  match bus.watchers[holder]? with
  | some (.gpu gpu) =>
    match gpu.pending? with
    | none => (.ok (), bus)
    | some mail =>
      -- The mail is taken even if it cannot be answered.
      let gpu := { gpu with pending? := none }
      (answerMail holder gpu mail).perform (bus.setWatcher holder (.gpu gpu))
  | some (.timer timer) =>
    match timer.refresh bus.now bus.memory with
    | .error fault => (.error fault, bus)
    | .ok memory => (.ok (), { bus with memory })
  | _ => (.ok (), bus)

end ArmBoard.Bus
