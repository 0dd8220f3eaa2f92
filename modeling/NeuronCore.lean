import NeuronCore.Runtime
import NeuronCore.Common.Brackets
import NeuronCore.Common.BracketPhase
import NeuronCore.Common.BracketsProofs
import NeuronCore.Common.BracketsRoundTrip
import NeuronCore.Query.Scope
import NeuronCore.Query.ChainRun
import NeuronCore.Query.Processor
import NeuronCore.Query.Registry
import NeuronCore.Query.Pagination
import NeuronCore.Mapping.StructField
import NeuronCore.Core.Service
import NeuronCore.Core.Initialize
import NeuronCore.Core.Run
