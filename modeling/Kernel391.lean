import Kernel391.Base.Run
import Kernel391.Model.Scheduler
import Kernel391.Model.Boot
import Kernel391.Process.System
import Kernel391.Base.Stacks
import Kernel391.Process.Forest
import Kernel391.Process.Coherence
import Kernel391.Process.Bracket
import Kernel391.Base.RoundRobin
import Kernel391.Process.Schedule
import Kernel391.Terminal.Page
import Kernel391.Terminal.Display
import Kernel391.Terminal.Routing
import Kernel391.Process.UserPages
import Kernel391.Terminal.Keys
import Kernel391.Terminal.Pane
import Kernel391.Terminal.Isolation
import Kernel391.Terminal.Typing
import Kernel391.Terminal.LineInput
import Kernel391.Terminal.InterruptedRead
import Kernel391.Terminal.Reads
import Kernel391.Base.LineEdit
import Kernel391.Base.Loop
import Kernel391.Terminal.Editing
import Kernel391.Terminal.Agreement
import Kernel391.Terminal.Layout
import Kernel391.Files.Contents
import Kernel391.Files.Containment
import Kernel391.Files.Slice
import Kernel391.Files.Image
import Kernel391.Files.ReadOnly
import Kernel391.Files.RtcRate
import Kernel391.Process.Arguments
import Kernel391.Process.Parsing
import Kernel391.Files.Streams
import Kernel391.Files.Listing
import Kernel391.Files.Absent
import Kernel391.Process.Descriptors
import Kernel391.Process.Launch
import Kernel391.Process.Protection
import Kernel391.Process.Allocation
import Kernel391.Process.Failures
import Kernel391.Model.I8259
import Kernel391.Devices.Masks
import Kernel391.Files.Inspection
import Kernel391.Process.VideoMap
import Kernel391.Process.Loading
import Kernel391.Process.Statuses
import Kernel391.Files.RtcDivisor
import Kernel391.Base.Logged
import Kernel391.Terminal.Bounds
import Kernel391.Terminal.Buffers
import Kernel391.Terminal.Echo
import Kernel391.Base.Numerals
import Kernel391.Base.While
import Kernel391.Model.Printf
import Kernel391.Devices.Rate
import Kernel391.Terminal.Numbers
import Kernel391.Memory.Calls
import Kernel391.Process.Linkage
import Kernel391.Devices.Interrupts
import Kernel391.User.Grep
import Kernel391.User.Returning
