import SysprimsPty.Found.Transition
import SysprimsPty.Found.WindowsArgv
import SysprimsPty.Found.PathWalk
import SysprimsPty.Found.Terminated
import SysprimsPty.Found.Layers
import SysprimsPty.Found.ReportPipe
import SysprimsPty.Found.HandOut
import SysprimsPty.Core.Io
import SysprimsPty.Spawn.Error
import SysprimsPty.Spawn.Windows
import SysprimsPty.Spawn.Unix
import SysprimsPty.Spawn.ChildStart
import SysprimsPty.Command.OsStr
import SysprimsPty.Command.Builder
import SysprimsPty.Command.WindowsSearch
import SysprimsPty.Command.Cmdline
import SysprimsPty.Command.Terminators
import SysprimsPty.Command.AsCommand
import SysprimsPty.Command.UnixSearch
import SysprimsPty.Command.CheckedFile
import SysprimsPty.Command.Environment
import SysprimsPty.Command.DefaultShell
import SysprimsPty.Command.EnvironmentBlock
import SysprimsPty.Command.BaseEnv
import SysprimsPty.Process.UnixChild
import SysprimsPty.Recovery.UnixAttempt
import SysprimsPty.Recovery.UnixBound
import SysprimsPty.Recovery.UnixSignals
import SysprimsPty.Process.WinChild
import SysprimsPty.Process.WinFuture
import SysprimsPty.Master.ConPty
import SysprimsPty.Master.Writer
import SysprimsPty.Master.ConPtySize
import SysprimsPty.Recovery.UnixSystem
import SysprimsPty.Recovery.UnixDrain
import SysprimsPty.Recovery.UnixTiming
import SysprimsPty.Recovery.WinSystem
import SysprimsPty.Recovery.WinTiming
import SysprimsPty.Found.Handles
import SysprimsPty.Process.WinHandles
import SysprimsPty.Master.ConPtyHandles
import SysprimsPty.Found.Descriptors
import SysprimsPty.Master.UnixPty
import SysprimsPty.Master.UnixPrograms
import SysprimsPty.Found.LineDiscipline
import SysprimsPty.Found.Polling
import SysprimsPty.Found.Doubling
import SysprimsPty.Spawn.ProgramStart
import SysprimsPty.Spawn.WindowsProgram
import SysprimsPty.Spawn.FailedSpawn
import SysprimsPty.Master.UnixWriter
import SysprimsPty.Master.Serial
import SysprimsPty.Master.UnixTty
import SysprimsPty.Process.ExitStatus
import SysprimsPty.Found.NamedStrings
import SysprimsPty.Spawn.UnixProgram
