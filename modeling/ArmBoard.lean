import ArmBoard.Cpu.Chart
import ArmBoard.Main
import ArmBoard.Proofs.Assembly.Behaviour
import ArmBoard.Proofs.Assembly.ShiftReading
import ArmBoard.Proofs.Decoding.Priority
import ArmBoard.Proofs.Decoding.Unassigned
import ArmBoard.Proofs.Execution.Atomicity
import ArmBoard.Proofs.Execution.BlockFault
import ArmBoard.Proofs.Execution.Compare
import ArmBoard.Proofs.Execution.MultiWord
import ArmBoard.Proofs.Execution.Product
import ArmBoard.Proofs.Execution.PushPop
import ArmBoard.Proofs.Execution.ShiftSteps
import ArmBoard.Proofs.Execution.SmallBlock
import ArmBoard.Proofs.Execution.StatusFrame
import ArmBoard.Proofs.Machine.Call
import ArmBoard.Proofs.Machine.Fibonacci
import ArmBoard.Proofs.Machine.Flush
import ArmBoard.Proofs.Machine.Origins
import ArmBoard.Proofs.Machine.Reload
import ArmBoard.Proofs.Machine.Rollback
import ArmBoard.Proofs.Machine.Runs
import ArmBoard.Proofs.Machine.WrittenPages
import ArmBoard.Proofs.Memory.Flat
import ArmBoard.Proofs.Peripheral.Allocation
import ArmBoard.Proofs.Peripheral.Drawing
import ArmBoard.Proofs.Peripheral.Refusal
import ArmBoard.Proofs.Peripheral.Setup
import ArmBoard.Proofs.Word.Fields
