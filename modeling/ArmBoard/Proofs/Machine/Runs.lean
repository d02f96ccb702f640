import Mathlib.Algebra.Group.Nat.Defs
import ArmBoard.Proofs.Machine.Moment
import ArmBoard.Proofs.Machine.Sequential

/-!
# Runs and their parts

A run is bounded by the count of instructions, which a cycle moves on only if it
succeeds. A run of so many instructions and another one from where it has ended
are therefore one run, and a run that stops with a fault stops every longer one
in the same place. When its instructions are executed is of no consequence, as
long as the machine does not call on a timer.
-/
namespace ArmBoard.Machine

open ArmBoard.Action (Follows Respects)

variable {machine between reached last other : Machine} {fault : Fault}

section Counting

/-- The count of instructions stays as it is. -/
def uncounted : Conduct Machine where
  admits _ := True
  keeps machine reached := reached.cycles = machine.cycles
  refl _ := rfl
  trans first second := second.trans first

theorem onCore_uncounted {α : Type} (action : Action Core α) :
    (onCore action).Follows uncounted False :=
  .onPart (fun _ => trivial) fun _ _ => rfl

theorem stepPeripherals_uncounted : stepPeripherals.Follows uncounted False :=
  follows_stepPeripherals fun _ _ =>
    .bind (onCore_uncounted _) fun _ => .bind (.change (Or.inr fun _ => rfl)) fun _ =>
      onCore_uncounted _

theorem fetch_uncounted : fetch.Follows uncounted False := by
  refine .of_keeps (fun _ => trivial) fun machine => ?_
  rw [perform_fetch]
  split <;> rfl

theorem takeFetched_uncounted : takeFetched.Follows uncounted False := by
  refine .of_keeps (fun _ => trivial) fun machine => ?_
  rw [takeFetched, Action.perform_ofFunction]
  split <;> rfl

/-- A cycle up to the point where it is counted. -/
def attempt : Action Machine Bool := do
  stepPeripherals
  let queued ← Action.ask fun machine : Machine => .ok machine.fetched.length
  fillQueue (fetchDepth - queued)
  let ahead ← onCore Core.pc
  let word ← takeFetched
  executeWord (ahead - pipelineDistance) word

theorem attempt_uncounted : attempt.Follows uncounted False := by
  refine .bind stepPeripherals_uncounted fun _ => ?_
  refine .bind (.ask fun _ => trivial) fun queued => ?_
  refine .bind (follows_fillQueue fetch_uncounted _) fun _ => ?_
  refine .bind (onCore_uncounted _) fun ahead => ?_
  refine .bind takeFetched_uncounted fun word => ?_
  exact .mapFault (.bind (.ask fun _ => trivial) fun opcode => onCore_uncounted _) fun _ => trivial

theorem perform_cycle_of_attempt (machine : Machine) :
    cycle.perform machine =
      match attempt.perform machine with
      | (.error fault, reached) => (.error fault, reached)
      | (.ok branched, reached) =>
          (.ok (), { reached with
            fetched := if branched then [] else reached.fetched
            cycles := reached.cycles + 1 }) := by
  have parts : cycle = (do
      let branched ← attempt
      Action.change fun machine : Machine =>
        { machine with
          fetched := if branched then [] else machine.fetched
          cycles := machine.cycles + 1 }) := by
    simp only [cycle, attempt, bind_assoc]
  rw [parts, Action.perform_bind]
  rcases attempt.perform machine with ⟨_ | _, reached⟩ <;> rfl

/-- A cycle that succeeds counts one instruction. -/
theorem cycles_of_cycle (cycled : cycle.perform machine = (.ok (), reached)) :
    reached.cycles = machine.cycles + 1 := by
  have kept := attempt_uncounted.keeps machine
  rw [perform_cycle_of_attempt] at cycled
  rcases attempted : attempt.perform machine with ⟨_ | _, between⟩ <;>
    rw [attempted] at cycled kept <;> cases cycled
  exact congrArg (· + 1) kept

/-- A cycle that fails is not counted. -/
theorem cycles_of_failure (failed : cycle.perform machine = (.error fault, reached)) :
    reached.cycles = machine.cycles := by
  have kept := attempt_uncounted.keeps machine
  rw [perform_cycle_of_attempt] at failed
  rcases attempted : attempt.perform machine with ⟨_ | _, between⟩ <;>
    rw [attempted] at failed kept <;> cases failed
  exact kept

end Counting

section Parts

/-- A number of cycles, one after the other, none of which fails. -/
inductive Succeeds : Nat → Machine → Machine → Prop
  | none (machine : Machine) : Succeeds 0 machine machine
  | more {count : Nat} {machine between reached : Machine}
      (cycled : cycle.perform machine = (.ok (), between))
      (rest : Succeeds count between reached) : Succeeds (count + 1) machine reached

/-- A number of cycles succeed and are counted, and the one that follows stops with a fault. -/
structure StopsAfter (count : Nat) (fault : Fault) (machine reached : Machine) : Prop where
  failed : ∃ last, Succeeds count machine last ∧ cycle.perform last = (.error fault, reached) ∧
    reached.cycles = last.cycles
  counted : reached.cycles = machine.cycles + count

namespace Succeeds

variable {count more : Nat}

theorem cycles (succeeds : Succeeds count machine reached) :
    reached.cycles = machine.cycles + count := by
  induction succeeds with
  | none => rfl
  | more cycled _ ih =>
    have once := cycles_of_cycle cycled
    omega

theorem trans (first : Succeeds count machine between) (second : Succeeds more between reached) :
    Succeeds (count + more) machine reached := by
  induction first with
  | none => rwa [Nat.zero_add]
  | more cycled _ ih =>
    rw [Nat.succ_add]
    exact .more cycled (ih second)

theorem perform_run (succeeds : Succeeds count machine reached) :
    (run count).perform machine = (.ok (), reached) := by
  induction succeeds with
  | none => rfl
  | more cycled _ ih =>
    rw [perform_run_succ, cycled]
    exact ih

/-- It tells the number of instructions that it was asked for. -/
theorem perform_runCounted (succeeds : Succeeds count machine reached) :
    (runCounted count).perform machine = (.ok count, reached) := by
  rw [Machine.perform_runCounted succeeds.perform_run, succeeds.cycles, Nat.add_sub_cancel_left]

theorem stopsAfter (succeeds : Succeeds count machine last)
    (failed : cycle.perform last = (.error fault, reached)) :
    StopsAfter count fault machine reached := by
  have uncounted := cycles_of_failure failed
  exact ⟨⟨last, succeeds, failed, uncounted⟩, uncounted.trans succeeds.cycles⟩

end Succeeds

namespace StopsAfter

variable {count done : Nat}

theorem prepend (first : Succeeds count machine between)
    (stops : StopsAfter done fault between reached) :
    StopsAfter (count + done) fault machine reached := by
  obtain ⟨last, succeeds, failed, _⟩ := stops.failed
  exact (first.trans succeeds).stopsAfter failed

/-- Every run that goes as far as the failing cycle stops there. -/
theorem perform_run (stops : StopsAfter done fault machine reached) (below : done < count) :
    (run count).perform machine = (.error fault, reached) := by
  obtain ⟨last, succeeds, failed, -⟩ := stops.failed
  clear stops
  induction succeeds generalizing count with
  | none =>
    -- The failing cycle is the next one, and the run has one to make.
    obtain ⟨count, rfl⟩ := Nat.exists_eq_add_one_of_ne_zero (Nat.ne_of_gt below)
    rw [perform_run_succ, failed]
  | more cycled _ ih =>
    obtain ⟨count, rfl⟩ := Nat.exists_eq_add_one_of_ne_zero (Nat.ne_zero_of_lt below)
    rw [perform_run_succ, cycled]
    exact ih (Nat.lt_of_succ_lt_succ below) failed

theorem perform_runCounted (stops : StopsAfter done fault machine reached) (below : done < count) :
    (runCounted count).perform machine = (.error fault, reached) := by
  rw [runCounted, Action.perform_bind, Action.perform_ask]
  dsimp only
  rw [Action.perform_bind, stops.perform_run below]

end StopsAfter

theorem succeeds_or_stops (count : Nat) (machine : Machine) :
    (∃ reached, Succeeds count machine reached) ∨
      ∃ done < count, ∃ fault reached, StopsAfter done fault machine reached := by
  induction count generalizing machine with
  | zero => exact Or.inl ⟨machine, .none machine⟩
  | succ count ih =>
    rcases cycled : cycle.perform machine with ⟨fault | _, between⟩
    · have stops := (Succeeds.none machine).stopsAfter cycled
      exact Or.inr ⟨0, Nat.succ_pos count, fault, between, stops⟩
    · -- The first cycle goes in front of whatever becomes of the others.
      rcases ih between with ⟨reached, rest⟩ | ⟨done, below, fault, reached, stops⟩
      · exact Or.inl ⟨reached, .more cycled rest⟩
      · refine Or.inr ⟨1 + done, by omega, fault, reached, ?_⟩
        exact stops.prepend (.more cycled (.none between))

theorem perform_runCounted_of_run {count : Nat} {outcome : Except Fault Unit}
    (ran : (run count).perform machine = (outcome, reached)) :
    (runCounted count).perform machine = (outcome.map fun _ => count, reached) := by
  rcases succeeds_or_stops count machine with ⟨_, succeeds⟩ | ⟨_, below, _, _, stops⟩
  · rw [succeeds.perform_run] at ran
    cases ran
    exact succeeds.perform_runCounted
  · rw [stops.perform_run below] at ran
    cases ran
    exact stops.perform_runCounted below

end Parts

section Moments

variable {clocks : Handle → Prop}

/-- Nobody on the bus calls on a timer, and none is attached to the machine. -/
structure Clockless (machine : Machine) : Prop where
  avoids : machine.bus.Avoids machine.bus.IsTimer
  attached : ∀ attachment ∈ machine.attachments, ¬ machine.bus.IsTimer attachment.holder

theorem Clockless.sameButTime (clockless : machine.Clockless) :
    SameButTime machine.bus.IsTimer machine machine :=
  ⟨clockless.avoids, clockless.attached, machine.bus.now, rfl⟩

theorem SameButTime.clockless (same : SameButTime clocks machine other) : machine.Clockless where
  avoids := same.avoids.isTimer
  attached attachment member timer :=
    same.attached attachment member (same.avoids.timers timer.choose_spec)

theorem run_timeless (count : Nat) : Respects (SameButTime clocks) (run count) := by
  induction count with
  | zero => exact .pure ()
  | succ count ih => exact cycle_timeless.bind fun _ => ih

theorem clockless_of_run {count : Nat} {outcome : Except Fault Unit} (clockless : machine.Clockless)
    (ran : (run count).perform machine = (outcome, reached)) : reached.Clockless := by
  have kept := ((run_timeless count).both clockless.sameButTime).2
  rw [ran] at kept
  exact kept.clockless

/-- The count of instructions, as the 64 bits that hold it. -/
def counter (machine : Machine) : Dword := BitVec.ofNat 64 machine.cycles

theorem SameButTime.counter (same : SameButTime clocks machine other) :
    other.counter = machine.counter := by
  obtain ⟨moment, rfl⟩ := same.moved
  rfl

/--
Executes instructions as long as the counter is less than a limit away from where it was at the
start. Before each of them any time may pass.
-/
inductive Loops (start limit : Dword) : Machine → Except Fault Nat → Machine → Prop
  | enough {machine : Machine} (done : limit ≤ machine.counter - start) :
      Loops start limit machine (.ok (machine.counter - start).toNat) machine
  | failed {machine reached : Machine} {fault : Fault} (moment : Nat)
      (short : machine.counter - start < limit)
      (cycled : cycle.perform (machine.atMoment moment) = (.error fault, reached)) :
      Loops start limit machine (.error fault) reached
  | again {machine between reached : Machine} {outcome : Except Fault Nat} (moment : Nat)
      (short : machine.counter - start < limit)
      (cycled : cycle.perform (machine.atMoment moment) = (.ok (), between))
      (rest : Loops start limit between outcome reached) :
      Loops start limit machine outcome reached

/-- A run of a number of instructions, counted in 64 bits, while time goes by. -/
def Runs (count : Nat) (machine : Machine) (outcome : Except Fault Nat) (reached : Machine) : Prop :=
  Loops machine.counter (BitVec.ofNat 64 count) machine outcome reached

section Counters

variable {start done count : Nat}

theorem toNat_counter_sub (counted : machine.cycles = start + done)
    (room : machine.cycles < 2 ^ 64) :
    (machine.counter - BitVec.ofNat 64 start).toNat = done := by
  rw [counter, BitVec.toNat_sub, BitVec.toNat_ofNat, BitVec.toNat_ofNat]
  omega

theorem counter_short_iff (counted : machine.cycles = start + done) (within : done ≤ count)
    (room : start + count < 2 ^ 64) :
    machine.counter - BitVec.ofNat 64 start < BitVec.ofNat 64 count ↔ done < count := by
  have limit : (BitVec.ofNat 64 count).toNat = count := by
    rw [BitVec.toNat_ofNat]
    omega
  rw [BitVec.lt_def, toNat_counter_sub counted (by omega), limit]

end Counters

theorem loops_of_run {start done count remaining : Nat} {outcome : Except Fault Unit}
    (ran : (run remaining).perform machine = (outcome, reached))
    (counted : machine.cycles = start + done) (parts : done + remaining = count)
    (room : start + count < 2 ^ 64) :
    Loops (BitVec.ofNat 64 start) (BitVec.ofNat 64 count) machine
      (outcome.map fun _ => count) reached := by
  -- As many cycles are left as the counter still lacks.
  induction remaining generalizing machine done with
  | zero =>
    have short := counter_short_iff counted (by omega) room
    have all := toNat_counter_sub counted (by omega)
    have enough := Loops.enough (BitVec.not_lt.mp fun fewer => (short.mp fewer).ne parts)
    rw [all, ← Nat.add_zero done, parts] at enough
    cases ran
    exact enough
  | succ remaining ih =>
    have fewer := (counter_short_iff counted (by omega) room).mpr (by omega)
    rw [perform_run_succ] at ran
    rcases cycled : cycle.perform machine with ⟨fault | _, between⟩ <;> rw [cycled] at ran
    · cases ran
      exact .failed machine.bus.now fewer cycled
    · have once : between.cycles = start + (done + 1) := by
        rw [cycles_of_cycle cycled, counted]
        rfl
      exact .again machine.bus.now fewer cycled (ih ran once (by omega))

/-- It was the run of the same machine, if that machine is the same at any moment. -/
theorem run_of_loops {start done count remaining : Nat} {outcome : Except Fault Nat}
    (loops : Loops (BitVec.ofNat 64 start) (BitVec.ofNat 64 count) other outcome reached)
    (same : SameButTime clocks machine other)
    (counted : machine.cycles = start + done) (parts : done + remaining = count)
    (room : start + count < 2 ^ 64) :
    ∃ result final, (run remaining).perform machine = (result, final) ∧
      outcome = result.map (fun _ => count) ∧ SameButTime clocks final reached := by
  induction remaining generalizing machine other done with
  | zero =>
    have short := counter_short_iff counted (by omega) room
    rw [← same.counter] at short
    cases loops with
    | enough =>
      refine ⟨.ok (), machine, rfl, ?_, same⟩
      rw [same.counter, toNat_counter_sub counted (by omega), ← parts]
      rfl
    | failed _ fewer => exact absurd parts (short.mp fewer).ne
    | again _ fewer => exact absurd parts (short.mp fewer).ne
  | succ remaining ih =>
    have short := counter_short_iff counted (by omega) room
    rw [← same.counter] at short
    cases loops with
    | enough finished => exact absurd (short.mpr (by omega)) (BitVec.not_lt.mpr finished)
    | failed moment _ cycled =>
      obtain ⟨_, final, _, here, there, kept⟩ := cycle_timeless.cases (same.atMoment moment)
      rw [cycled] at there
      cases there
      exact ⟨.error _, final, by rw [perform_run_succ, here], rfl, kept⟩
    | again moment _ cycled rest =>
      -- The loop's cycle at its moment is the run's, and what is left differs by the time again.
      obtain ⟨_, next, _, here, there, kept⟩ := cycle_timeless.cases (same.atMoment moment)
      rw [cycled] at there
      cases there
      have once : next.cycles = start + (done + 1) := by
        rw [cycles_of_cycle here, counted]
        rfl
      obtain ⟨result, final, ran, told, arrived⟩ := ih rest kept once (by omega)
      exact ⟨result, final, by rw [perform_run_succ, here]; exact ran, told, arrived⟩

/--
A run of the machine is what the counting loop comes to. Whatever the loop comes to otherwise, if
it starts at another moment or time goes by meanwhile, is the same but for the time.
-/
structure Repeatable (count : Nat) (machine : Machine) : Prop where
  runs : machine.Runs count ((runCounted count).perform machine).1
    ((runCounted count).perform machine).2
  same : ∀ {moment outcome reached}, (machine.atMoment moment).Runs count outcome reached →
    outcome = ((runCounted count).perform machine).1 ∧
      ∃ later, reached = ((runCounted count).perform machine).2.atMoment later

theorem Clockless.repeatable (clockless : machine.Clockless) {count : Nat}
    (room : machine.cycles + count < 2 ^ 64) : machine.Repeatable count := by
  rcases ran : (run count).perform machine with ⟨outcome, reached⟩
  have counted := perform_runCounted_of_run ran
  constructor
  · rw [counted]
    exact loops_of_run ran rfl (Nat.zero_add count) room
  · intro moment answer arrived runs
    obtain ⟨_, _, again, told, same⟩ :=
      run_of_loops runs (clockless.sameButTime.atMoment moment) rfl (Nat.zero_add count) room
    rw [ran] at again
    cases again
    rw [counted]
    exact ⟨told, same.moved⟩

end Moments

/--
Two runs are one run of as many instructions, also in the faults they stop with, and a run that
stops is where every longer one stops. It does not matter when the instructions are executed, if
nobody calls on a timer.
-/
theorem runs_compose (machine : Machine) (n m : Nat) (room : machine.cycles + n + m < 2 ^ 64) :
    (machine.Clockless → ∀ count ≤ n + m, machine.Repeatable count) ∧
    (∀ answer reached, (runCounted n).perform machine = (.ok answer, reached) →
      answer = n ∧ reached.cycles = machine.cycles + n ∧
      (machine.Clockless → reached.Repeatable m) ∧
      ∀ outcome last, (runCounted m).perform reached = (outcome, last) →
        ∃ whole, (runCounted (n + m)).perform machine = (whole, last) ∧
          (whole = .ok (n + m) ↔ outcome = .ok m) ∧
          ∀ fault, whole = .error fault ↔ outcome = .error fault) ∧
    (∀ fault reached, (runCounted n).perform machine = (.error fault, reached) →
      (runCounted (n + m)).perform machine = (.error fault, reached) ∧
      ∃ count < n, StopsAfter count fault machine reached) := by
  refine ⟨fun clockless count within => clockless.repeatable (by omega), ?_, ?_⟩
  · intro answer reached ran
    rcases succeeds_or_stops n machine with ⟨_, first⟩ | ⟨_, below, _, _, stops⟩
    · rw [first.perform_runCounted] at ran
      cases ran
      have counted := first.cycles
      refine ⟨rfl, counted, fun clockless => ?_, fun outcome last ran => ?_⟩
      · exact (clockless_of_run clockless first.perform_run).repeatable (by omega)
      -- Where the second run stops, so many cycles later the whole run does.
      rcases succeeds_or_stops m reached with ⟨_, second⟩ | ⟨_, below, _, _, stops⟩
      · rw [second.perform_runCounted] at ran
        cases ran
        exact ⟨_, (first.trans second).perform_runCounted, iff_of_true rfl rfl,
          fun _ => iff_of_false nofun nofun⟩
      · rw [stops.perform_runCounted below] at ran
        cases ran
        exact ⟨_, (stops.prepend first).perform_runCounted (by omega), iff_of_false nofun nofun,
          fun _ => Iff.rfl⟩
    · rw [stops.perform_runCounted below] at ran
      cases ran
  · intro fault reached ran
    rcases succeeds_or_stops n machine with ⟨_, succeeds⟩ | ⟨done, below, _, _, stops⟩
    · rw [succeeds.perform_runCounted] at ran
      cases ran
    · rw [stops.perform_runCounted below] at ran
      cases ran
      exact ⟨stops.perform_runCounted (by omega), done, below, stops⟩

/-- A graphics unit, two instructions and an unknown one; five have been executed before. -/
def faltering : Machine :=
  let (gpu, bus) := (Bus.ofMemory (.blank 256 4)).addWatcher (.gpu (.create (some 0x80) (some 0x80)))
  let program := Bytes.ofValue 4 0xE3A00001#32 ++ Bytes.ofValue 4 0xE3A01002#32 ++
    Bytes.ofValue 4 0xE7F000F0#32
  ((({ ofMemory (.blank 256 4) with bus, cycles := 5 } : Machine).attach gpu).loadProgram program).2

theorem clockless_faltering : faltering.Clockless := by
  have idle (holder : Handle) : ¬ faltering.bus.IsTimer holder := by
    rintro ⟨timer, present⟩
    match holder, present with
    | 0, present => cases present
    | _ + 1, present => cases present
  exact ⟨⟨fun present => ⟨_, present⟩, fun _ _ => idle _, fun _ _ _ _ _ _ => idle _⟩,
    fun _ _ => idle _⟩

/-- After one instruction, and after one more, the third one is what any longer run stops at. -/
theorem faltering_stops_at_its_third_instruction :
    ∃ between reached, (runCounted 1).perform faltering = (.ok 1, between) ∧ between.cycles = 6 ∧
      between.Repeatable 3 ∧
      (runCounted 3).perform between = (.error (.unknown 0xE7F000F0 8), reached) ∧
      (runCounted 4).perform faltering = (.error (.unknown 0xE7F000F0 8), reached) ∧
      reached.cycles = 7 ∧ faltering.Repeatable 4 := by
  have one : ((runCounted 1).perform faltering).1 = .ok 1 := by decide +kernel
  have three : ((runCounted 3).perform ((runCounted 1).perform faltering).2).1 =
      .error (.unknown 0xE7F000F0 8) := by decide +kernel
  have seven : ((runCounted 3).perform ((runCounted 1).perform faltering).2).2.cycles = 7 := by
    decide +kernel
  rcases first : (runCounted 1).perform faltering with ⟨answer, between⟩
  rw [first] at one three seven
  rcases second : (runCounted 3).perform between with ⟨outcome, reached⟩
  rw [second] at three seven
  subst one three
  obtain ⟨repeatable, parts, _⟩ := runs_compose faltering 1 3 (by decide +kernel)
  obtain ⟨-, counted, later, whole⟩ := parts _ _ first
  obtain ⟨whole, ran, -, faults⟩ := whole _ _ second
  rw [(faults _).mpr rfl] at ran
  exact ⟨between, reached, rfl, counted, later clockless_faltering, second, ran, seven,
    repeatable clockless_faltering 4 le_rfl⟩

end ArmBoard.Machine
