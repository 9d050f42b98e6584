import CoopKernel.Console.MiniUart
import CoopKernel.Console.ScriptedBackend
import CoopKernel.Console.Stream.Contents
import CoopKernel.Machine.Perform
import CoopKernel.Machine.Transcript
import CoopKernel.Console.Transcript
import CoopKernel.Machine.Boot
import CoopKernel.Proofs.QueueHistory
import CoopKernel.Proofs.Beats
import CoopKernel.Proofs.Underway
import CoopKernel.Proofs.MasterRun
import CoopKernel.Proofs.BusRun
import CoopKernel.Proofs.TransferProgress
import CoopKernel.Proofs.TransferData
import CoopKernel.Proofs.TransferRun
import CoopKernel.Proofs.NestOperations
import CoopKernel.Proofs.HolderWoken
import CoopKernel.Proofs.BusClients
import CoopKernel.Proofs.BusSessions
import CoopKernel.Proofs.BusTurns
import CoopKernel.Proofs.PatientDrain
import CoopKernel.Proofs.PacedPatience
import CoopKernel.Proofs.ConsoleOutput
import CoopKernel.Proofs.ExecRules
import CoopKernel.Proofs.NestRoster
import CoopKernel.Proofs.KernelSteps
import CoopKernel.Proofs.OperationSteps
import CoopKernel.Proofs.MachineSteps
import CoopKernel.Proofs.MachineRuns
import CoopKernel.Proofs.NestOwnership
import CoopKernel.Proofs.SoftHistory
import CoopKernel.Proofs.SoftPolls
import CoopKernel.Proofs.TerminalPrints
import CoopKernel.Proofs.ChipCalls
import CoopKernel.Proofs.ChipConversations
import CoopKernel.Proofs.ChipIdentify
import CoopKernel.Proofs.BufferLists
import CoopKernel.Proofs.LoopHistory
import CoopKernel.Proofs.OverlappingExchange
import CoopKernel.Proofs.InterruptFlag
import CoopKernel.Proofs.ConsoleDelivery
import CoopKernel.Proofs.StreamFifo
import CoopKernel.Proofs.BoardOperations
import CoopKernel.Proofs.InterruptTransparency
import CoopKernel.Proofs.PollTaskSpared
import CoopKernel.Proofs.PollTaskPlace
import CoopKernel.Proofs.RegisterHandshake
import CoopKernel.Proofs.RefusedRequest
import CoopKernel.Proofs.PassLooks
import CoopKernel.Proofs.BufferCosts
import CoopKernel.Proofs.PollingCost
import CoopKernel.Proofs.ChipRecord
import CoopKernel.Proofs.MixedCalls
import CoopKernel.Proofs.MixedConversations
import CoopKernel.Proofs.ChipGeometry
import CoopKernel.Proofs.LoopTurn
import CoopKernel.Proofs.TruthfulBackend
import CoopKernel.Proofs.TransferResidue
import CoopKernel.Proofs.ChipAwait
import CoopKernel.Proofs.CallRecords
import CoopKernel.Proofs.BackendPrefix
import CoopKernel.Proofs.CommitCalls
import CoopKernel.Proofs.AddressedCommands
import CoopKernel.Proofs.RefusedTransfer
import CoopKernel.Proofs.ClockSelection
import CoopKernel.Proofs.ExposedStores
import CoopKernel.Proofs.SectionRestore
