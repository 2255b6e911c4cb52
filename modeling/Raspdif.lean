import Raspdif.Lib.BitString
import Raspdif.Lib.BiphaseMark
import Raspdif.Lib.Framing
import Raspdif.Lib.TagMessage
import Raspdif.Lib.Translation
import Raspdif.Spdif.Types
import Raspdif.Spdif.Encode
import Raspdif.Spdif.Build
import Raspdif.Spdif.LineCode
import Raspdif.Spdif.Sync
import Raspdif.Spdif.ChannelStatus
import Raspdif.Spdif.Receiver
import Raspdif.Writer.BufferSamples
import Raspdif.Writer.BlockStructure
import Raspdif.Writer.ParseSample
import Raspdif.Writer.Stream
import Raspdif.Writer.WordLength
import Raspdif.Lib.Ring
import Raspdif.Lib.Trace
import Raspdif.Lib.Simulation
import Raspdif.Main.File
import Raspdif.Main.Program
import Raspdif.Main.Cursor
import Raspdif.Main.Input
import Raspdif.Main.Preload
import Raspdif.Main.Handoff
import Raspdif.Main.Fill
import Raspdif.Main.Chunking
import Raspdif.Main.Memory
import Raspdif.Main.Phase
import Raspdif.Dma.System
import Raspdif.Dma.Overwrite
import Raspdif.Dma.Playback
import Raspdif.Lib.Disparity
import Raspdif.Spdif.Balance
import Raspdif.Spdif.Lock
import Raspdif.Lib.BitField
import Raspdif.Peripheral.Pcm
import Raspdif.Lib.CDouble
import Raspdif.Peripheral.Clock
import Raspdif.Main.Delay
import Raspdif.Peripheral.Gpio
import Raspdif.Peripheral.GpioMask
import Raspdif.Main.Replay
import Raspdif.Main.EndOfInput
import Raspdif.Main.WriterCursor
import Raspdif.Dma.Walk
import Raspdif.Dma.Live
import Raspdif.Dma.Fifo
import Raspdif.Dma.Line
import Raspdif.Dma.Audio
import Raspdif.Lib.Interaction
import Raspdif.Process.Calls
import Raspdif.Process.Drivers
import Raspdif.Process.Startup
import Raspdif.Lib.Fairness
import Raspdif.Process.Liveness
import Raspdif.Process.Contract
import Raspdif.Process.Release
import Raspdif.Process.Signals
import Raspdif.Process.Mailbox
import Raspdif.Lib.Monitor
import Raspdif.Process.Regime
import Raspdif.Process.Hardware
import Raspdif.Process.Guard
import Raspdif.Process.PcmSettings
import Raspdif.Process.Course
import Raspdif.Process.Transmission
import Raspdif.Process.Rounds
import Raspdif.Process.Mapped
import Raspdif.Process.Board
import Raspdif.Process.Mailbox
import Raspdif.Process.Audio
import Raspdif.Process.Options
