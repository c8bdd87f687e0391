import Taskflow.Binding.Written
import Taskflow.Compile.Executable
import Taskflow.Json.Reader
import Taskflow.Wire.Executable
import Taskflow.Wire.Settings
import Taskflow.Proofs.Keyword.Bindings
import Taskflow.Proofs.Compile.Accepted
import Taskflow.Proofs.Flow.Navigation
import Taskflow.Proofs.Flow.Targets
import Taskflow.Proofs.Flow.Walk
import Taskflow.Proofs.Flow.Run
import Taskflow.Proofs.Compile.Checks
import Taskflow.Proofs.Keyword.Refusals
import Taskflow.Proofs.Compile.Lenient
import Taskflow.Proofs.Keyword.Kinds
import Taskflow.Proofs.Compile.WellFormed
import Taskflow.Proofs.Compile.Action
import Taskflow.Proofs.Keyword.Reached
import Taskflow.Proofs.Reference.Identity
import Taskflow.Proofs.Wire.HandOff
import Taskflow.Proofs.Wire.ValidLoops
import Taskflow.Proofs.Compile.Reordered
import Taskflow.Proofs.Compile.Respelled
import Taskflow.Proofs.Compile.Nulls
import Taskflow.Proofs.Compile.Reserved
import Taskflow.Proofs.Compile.Imported
import Taskflow.Proofs.Compile.Alone
import Taskflow.Proofs.SourceFile.Operations
import Taskflow.Proofs.SourceFile.Declared
import Taskflow.Proofs.Loop.Written
import Taskflow.Proofs.Keyword.Kept
import Taskflow.Proofs.Binding.InputEntry
import Taskflow.Proofs.Keyword.ReadBack
import Taskflow.Proofs.Reference.Reading
import Taskflow.Proofs.Keyword.Scoped
import Taskflow.Proofs.Keyword.Joined
import Taskflow.Proofs.Wire.KnownNames
