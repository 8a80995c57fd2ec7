import RuleScan.Text.Quoted
import RuleScan.Text.Table
import RuleScan.Sha256
import RuleScan.Condition.Text
import RuleScan.Condition.Typing
import RuleScan.Condition.Eval
import RuleScan.ScanState
import RuleScan.Bytecode.Code
import RuleScan.Module.Builder
import RuleScan.Engine.Session
import RuleScan.Scanner.Basic
import RuleScan.Proofs.Leb128
import RuleScan.Proofs.ModuleLayout
import RuleScan.Proofs.InstructionStream
import RuleScan.Proofs.ValidCode
import RuleScan.Proofs.BuiltModules
import RuleScan.Proofs.ConditionTyping
import RuleScan.Proofs.GeneratedValidity
import RuleScan.Proofs.EngineHistory
import RuleScan.Proofs.RuleModules
import RuleScan.Proofs.HostCalls
import RuleScan.Proofs.CodeExecution
import RuleScan.Proofs.GeneratedExecution
import RuleScan.Proofs.ScanReports
import RuleScan.Proofs.ScanCorrectness
import RuleScan.Proofs.TypeSoundness
import RuleScan.Proofs.EngineRuns
import RuleScan.Proofs.EngineSessions
import RuleScan.Proofs.CacheTransparency
import RuleScan.Proofs.FirstOccurrences
import RuleScan.Proofs.CacheRecency
import RuleScan.Proofs.UniformRuns
import RuleScan.Proofs.RunLimits
import RuleScan.Proofs.LinkedModules
import RuleScan.Proofs.ModuleReports
import RuleScan.Proofs.MatchQueries
import RuleScan.Proofs.OffsetOrder
import RuleScan.Proofs.IndexHistory
import RuleScan.Proofs.RecordedMatches
import RuleScan.Proofs.InstructionCodec
import RuleScan.Proofs.ModuleBinary
import RuleScan.Proofs.BuilderLifeCycle
import RuleScan.Proofs.Instantiation
import RuleScan.Proofs.ScanConsistency
import RuleScan.Proofs.BlockNesting
import RuleScan.Proofs.BuildFaults
import RuleScan.Proofs.CheckingPass
import RuleScan.Proofs.OnePassGeneration
import RuleScan.Proofs.RuleAcceptance
import RuleScan.Proofs.RuleComposition
import RuleScan.Proofs.ScanAccounting
import RuleScan.Proofs.EncodingBuffers
import RuleScan.Proofs.ControlGrammar
import RuleScan.Proofs.NestedStreams
import RuleScan.Proofs.BuiltStructure
import RuleScan.Proofs.LinkChecking
import RuleScan.Proofs.HostInterface
import RuleScan.Proofs.ConditionReading
import RuleScan.Proofs.CheckedArithmetic
import RuleScan.Module.Reader
