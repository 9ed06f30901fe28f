import Iperf2.Lib.Transition
import Iperf2.Lib.Circular
import Iperf2.Lib.Channel
import Iperf2.Lib.Bytes
import Iperf2.Lib.Decoder
import Iperf2.Lib.Rendezvous
import Iperf2.Lib.Framing
import Iperf2.Lib.Bpf
import Iperf2.Lib.OnesComplement
import Iperf2.Lib.ByteOrder
import Iperf2.Lib.CString
import Iperf2.Ring.Model
import Iperf2.Ring.Fifo
import Iperf2.Ring.Slot
import Iperf2.Lib.Registry
import Iperf2.Hosts.Table
import Iperf2.Hosts.History
import Iperf2.Hosts.Udp
import Iperf2.Hosts.Lifetime
import Iperf2.Hosts.Reject
import Iperf2.Lib.Meter
import Iperf2.Lib.Pool
import Iperf2.Lib.Trigger
import Iperf2.Lib.Chain
import Iperf2.Lib.Census
import Iperf2.Lib.Bucket
import Iperf2.Lib.Watermark
import Iperf2.Lib.Tiling
import Iperf2.Lib.Deadline
import Iperf2.Lib.FixedPoint
import Iperf2.Lib.Access
import Iperf2.Lib.Running
import Iperf2.Lib.Tally
import Iperf2.Lib.First
import Iperf2.Lib.Transfer
import Iperf2.Report.Types
import Iperf2.Report.Handlers
import Iperf2.Report.Output
import Iperf2.Report.Process
import Iperf2.Report.Init
import Iperf2.Report.Run
import Iperf2.Report.Loss
import Iperf2.Report.Intervals
import Iperf2.Report.Counts
import Iperf2.Report.Group
import Iperf2.Report.Records
import Iperf2.Report.Bursts
import Iperf2.Report.Catchup
import Iperf2.Report.Grid
import Iperf2.Report.Jobq
import Iperf2.Report.Pass
import Iperf2.Report.Members
import Iperf2.Report.Pairing
import Iperf2.Report.FinalTime
import Iperf2.Report.Duplex
import Iperf2.Report.TransitTimes
import Iperf2.Report.ConnectTimes
import Iperf2.Report.ReadBins
import Iperf2.Report.Histogram
import Iperf2.Report.HistogramPrint
import Iperf2.Report.Percentiles
import Iperf2.Report.FrameCounts
import Iperf2.Report.BurstSamples
import Iperf2.Traffic.Server
import Iperf2.Traffic.Client
import Iperf2.Header.Types
import Iperf2.Header.ModalOptions
import Iperf2.Header.BindAddress
import Iperf2.Header.Generate
import Iperf2.Header.Apply
import Iperf2.Header.Connection
import Iperf2.Header.Frame
import Iperf2.Header.Mode
import Iperf2.Header.PermitKey
import Iperf2.Header.Reads
import Iperf2.Header.Numbers
import Iperf2.Header.Coverage
import Iperf2.Header.Rates
import Iperf2.Header.Isoch
import Iperf2.Header.Malformed
import Iperf2.Header.Relay
import Iperf2.Header.Transit
import Iperf2.Header.AckFin
import Iperf2.Header.Amount
import Iperf2.Header.Ack
import Iperf2.Threads.FullDuplex
import Iperf2.Threads.Reuse
import Iperf2.Threads.Release
import Iperf2.Threads.Start
import Iperf2.Threads.Accounting
import Iperf2.Threads.Successor
import Iperf2.Traffic.Sent
import Iperf2.Traffic.Arrivals
import Iperf2.Traffic.Sequence
import Iperf2.Traffic.Burst
import Iperf2.Traffic.Paced
import Iperf2.Traffic.Transfers
import Iperf2.Traffic.Filter
import Iperf2.Traffic.Quintuple
import Iperf2.Traffic.IncrAddress
import Iperf2.Traffic.AcceptFilter
import Iperf2.Traffic.Checksum
import Iperf2.Traffic.Pacing
import Iperf2.Traffic.TokenBucket
import Iperf2.Traffic.Amount
import Iperf2.Traffic.Received
import Iperf2.Traffic.Tick
import Iperf2.Traffic.FrameRate
import Iperf2.Traffic.IsochFrame
import Iperf2.Report.Pipeline
import Iperf2.Traffic.Delivery
import Iperf2.Traffic.Losses
import Iperf2.Traffic.Closing
import Iperf2.Lib.Numeral
import Iperf2.Compat.Inet
import Iperf2.Compat.Inet6
import Iperf2.Compat.Inet6Read
import Iperf2.Traffic.ReadRate
import Iperf2.Lib.Exchange
import Iperf2.Options.Getopt
import Iperf2.Options.CommandLine
import Iperf2.Traffic.TcpClient
import Iperf2.Traffic.TcpBytes
import Iperf2.Traffic.FileInput
import Iperf2.Traffic.Streams
import Iperf2.Traffic.StreamEnds
