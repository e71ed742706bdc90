import ChemEmulator.Support.LittleEndian
import ChemEmulator.Common
import ChemEmulator.Support.ByteMemory
import ChemEmulator.Models.DataPool
import ChemEmulator.Models.Signal
import ChemEmulator.Support.EarlyExit
import ChemEmulator.Net.UdpClient
import ChemEmulator.Net.Fragmentation
import ChemEmulator.Net.SendCompleteness
import ChemEmulator.Net.Reassembly
import ChemEmulator.Net.ReceiveBounds
import ChemEmulator.Net.ReassemblySoundness
import ChemEmulator.Net.PacketPool
import ChemEmulator.Net.Transmission
import ChemEmulator.Net.StreamRoundTrip
import ChemEmulator.Net.StreamLoss
import ChemEmulator.Net.Resynchronisation
import ChemEmulator.Channel.Channel
import ChemEmulator.Channel.Intermediate
import ChemEmulator.Channel.ChannelMap
import ChemEmulator.Models.NodeConfig
import ChemEmulator.Node.NodeEntity
import ChemEmulator.Node.Controller
import ChemEmulator.Node.Refresh
import ChemEmulator.Node.Attachment
import ChemEmulator.Node.Registration
import ChemEmulator.Models.SignalQueue
import ChemEmulator.Support.Outcome
import ChemEmulator.Support.Tally
import ChemEmulator.Pipeline.System
import ChemEmulator.Pipeline.BufferWeight
import ChemEmulator.Pipeline.BufferConservation
import ChemEmulator.Pipeline.BufferOwnership
import ChemEmulator.Pipeline.PoolBalance
import ChemEmulator.Support.BoundedQueue
import ChemEmulator.Pipeline.QueueOverflow
import ChemEmulator.Pipeline.OutputHeader
import ChemEmulator.Dsp.Kernels
import ChemEmulator.Channel.Processing
import ChemEmulator.Pipeline.Samples
import ChemEmulator.Pipeline.ScratchBounds
import ChemEmulator.Pipeline.Superposition
import ChemEmulator.Channel.Determinacy
import ChemEmulator.Pipeline.BurstIsolation
import ChemEmulator.Node.RefreshResult
import ChemEmulator.Node.Assignment
import ChemEmulator.Node.Reregistration
import ChemEmulator.Node.FailureAtomicity
import ChemEmulator.Node.SampleRates
import ChemEmulator.Channel.Coordinator
import ChemEmulator.Node.ConfigCopies
import ChemEmulator.Pipeline.TransmitterWakeup
import ChemEmulator.Pipeline.WorkerShutdown
import ChemEmulator.Channel.ChannelShutdown
import ChemEmulator.Support.Delimited
import ChemEmulator.Net.TcpServer
import ChemEmulator.Node.RequestOrigin
import ChemEmulator.Node.Liveness
import ChemEmulator.Node.PortConservation
import ChemEmulator.Node.Intermediates
import ChemEmulator.Node.Cleanup
import ChemEmulator.Node.SandboxMembership
import ChemEmulator.Node.IntermediateLifetime
import ChemEmulator.Support.Json
import ChemEmulator.Models.ConfigDecoding
import ChemEmulator.Models.ConfigFields
import ChemEmulator.Models.ConfigEncoding
import ChemEmulator.Models.FaultIsolation
import ChemEmulator.Channel.Commands
import ChemEmulator.Channel.CommandReading
import ChemEmulator.Node.RequestTotality
import ChemEmulator.Node.MembershipMaps
import ChemEmulator.Channel.PropagationSettings
import ChemEmulator.Node.Shadowing
import ChemEmulator.Channel.PathLossCommands
import ChemEmulator.Pipeline.DestinationSnapshot
import ChemEmulator.Support.VersionStamp
import ChemEmulator.Pipeline.SnapshotRates
import ChemEmulator.Dsp.Noise
import ChemEmulator.Support.TableMirror
import ChemEmulator.Node.ChannelTable
import ChemEmulator.Node.ChannelViews
import ChemEmulator.Support.QuotedText
import ChemEmulator.Support.OwnedRecords
import ChemEmulator.Node.VehicleOwnership
import ChemEmulator.Vehicle.Handler
import ChemEmulator.Dsp.ImpulseResponse
import ChemEmulator.Dsp.CentredFilter
import ChemEmulator.Dsp.FilterOverloads
import ChemEmulator.Support.Chunks
import ChemEmulator.Support.Convolution
import ChemEmulator.Pipeline.MultipathContinuity
import ChemEmulator.Channel.Geometry
import ChemEmulator.Channel.LinkReciprocity
import ChemEmulator.Channel.AntennaPointing
import ChemEmulator.Channel.PortOrientation
import ChemEmulator.Support.GatheredSum
import ChemEmulator.Pipeline.ResamplingFill
import ChemEmulator.Channel.PathLoss
import ChemEmulator.Extensions.SandboxPathLoss
import ChemEmulator.Pipeline.ProcessingBounds
import ChemEmulator.Support.ScatteredSum
import ChemEmulator.Extensions.SionnaTaps
import ChemEmulator.Extensions.SionnaRegistry
import ChemEmulator.Extensions.SionnaCir
import ChemEmulator.Extensions.SionnaShutdown
import ChemEmulator.Pipeline.FrequencyContinuity
import ChemEmulator.Pipeline.RotationSplit
import ChemEmulator.Db.Statements
import ChemEmulator.Node.NodeTable
import ChemEmulator.Support.LineExchange
import ChemEmulator.Support.PythonJson
import ChemEmulator.Client.Requests
import ChemEmulator.Client.Session
import ChemEmulator.Client.RemoteCommands
import ChemEmulator.Support.RingBuffer
import ChemEmulator.Models.LogBuffer
import ChemEmulator.Support.SortedMembers
import ChemEmulator.Support.MergePatch
import ChemEmulator.Models.ConfigFile
import ChemEmulator.Antennas.PatternTables
import ChemEmulator.Support.RowMajor
import ChemEmulator.Antennas.Generator
import ChemEmulator.Antennas.HalfTurn
