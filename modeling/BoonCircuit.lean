import BoonCircuit.Wire.RoundTrip
import BoonCircuit.CompilationDb.Soundness
import BoonCircuit.Persistence.ActivationReplay
import BoonCircuit.Persistence.Coordinator.Checkpointing
import BoonCircuit.Persistence.Coordinator.Progress
import BoonCircuit.Persistence.ImageInvariant
import BoonCircuit.Executor.AcceptedTurns
import BoonCircuit.Executor.OrderEdits
import BoonCircuit.Executor.Deltas
import BoonCircuit.Distributed.Naming
import BoonCircuit.Distributed.Reconnect
import BoonCircuit.Data.PublicNumbers
import BoonCircuit.Data.RadixText
import BoonCircuit.Data.BitsArithmetic
import BoonCircuit.CompilerKernel.InitialOrder
import BoonCircuit.ListAccess.KeyOrder
import BoonCircuit.Persistence.MigrationChain
import BoonCircuit.Persistence.OutboxLifeCycle
