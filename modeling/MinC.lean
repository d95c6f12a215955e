import MinC.Sys.Privilege
import MinC.Vfs.Rename
import MinC.Lib.Bits
import MinC.Lib.Handles
import MinC.Lib.Slots
import MinC.Win.Handle
import MinC.Vfs.Node
import MinC.Vfs.Duplicate
import MinC.Sys.Descriptors
import MinC.Vfs.Close
import MinC.Sys.DescriptorRuns
import MinC.Sys.Pairs
import MinC.Vfs.Channels
import MinC.Vfs.Inheritance
import MinC.Vfs.Survival
import MinC.Lib.Cells
import MinC.Lib.Unicode
import MinC.Win.Wchar
import MinC.Vfs.Namei
import MinC.Vfs.Walk
import MinC.Vfs.Plain
import MinC.Vfs.Links
import MinC.Vfs.LinkTargets
import MinC.Sys.Namei
import MinC.Sys.PathPosix
import MinC.Sys.PathRounds
import MinC.Vfs.Symlink
import MinC.Sys.Symlink
import MinC.Vfs.Bounds
import MinC.Vfs.Lengths
import MinC.Sys.Bounds
import MinC.Lib.CommandLine
import MinC.Win.Stdlib
import MinC.Sys.Exec
import MinC.Sys.Arguments
import MinC.Vfs.Poll
import MinC.Win.Acl
import MinC.Lib.Builders
import MinC.Win.AclBlock
import MinC.Vfs.Acl
import MinC.Vfs.AclStat
import MinC.Sys.Stat
import MinC.Vfs.AclChown
import MinC.Vfs.AclCreate
import MinC.Vfs.Task
import MinC.Vfs.Process
import MinC.Vfs.Wait
import MinC.Vfs.Signal
import MinC.Vfs.PollRounds
import MinC.Sys.Poll
import MinC.Sys.Select
import MinC.Sys.Wait
import MinC.Sys.WaitRuns
import MinC.Sys.Signal
import MinC.Sys.TaskRuns
import MinC.Sys.Lineage
import MinC.Vfs.Console
import MinC.Vfs.Ansi
import MinC.Vfs.Screen
import MinC.Vfs.ScreenRuns
import MinC.Vfs.Collector
import MinC.Vfs.Input
import MinC.Vfs.InputLines
import MinC.Vfs.Fillings
import MinC.Vfs.Paste
import MinC.Vfs.Replies
import MinC.Vfs.Queue
import MinC.Vfs.Terminal
import MinC.Vfs.Mount
import MinC.Vfs.AclInit
import MinC.Sys.SetIdBits
import MinC.Win.Rid
import MinC.Vfs.Socket
import MinC.Sys.Socket
import MinC.Sys.ControlData
import MinC.Sys.LocalSocket
import MinC.Lib.Records
import MinC.Vfs.Dirent
import MinC.Vfs.Listing
import MinC.Sys.Dirent
import MinC.Vfs.MountIds
import MinC.Sys.MountIds
import MinC.Vfs.MountRuns
import MinC.Lib.Keys
import MinC.Vfs.Device
import MinC.Vfs.Attach
import MinC.Vfs.DeviceNames
import MinC.Vfs.DeviceRuns
import MinC.Win.Groups
import MinC.Win.GroupMerge
import MinC.Sys.Groups
import MinC.Vfs.Lock
import MinC.Sys.Lock
import MinC.Sys.Open
import MinC.Sys.Fcntl
import MinC.Lib.Layout
import MinC.Sys.Kernel
import MinC.Net.Route
import MinC.Net.IfList
import MinC.Sys.Sysctl
import MinC.Sys.Exit
import MinC.Sys.ExitRuns
import MinC.Lib.Pieces
import MinC.Sys.Shebang
import MinC.Sys.Lookup
import MinC.Sys.Slashes
import MinC.Sys.PathRoom
import MinC.Vfs.ScreenPasses
import MinC.Vfs.ControlSequence
import MinC.Vfs.Rendition
import MinC.Vfs.CursorPlaces
import MinC.Vfs.CursorMoves
import MinC.Vfs.Erasing
import MinC.Sys.Sockaddr
import MinC.Vfs.Unistd
import MinC.Vfs.Uio
import MinC.Sys.Uio
import MinC.Vfs.PollTime
import MinC.Vfs.Time
import MinC.Sys.Time
import MinC.Sys.Time
import MinC.Sys.Sockopt
import MinC.Lib.Counters
import MinC.Win.LocalHeap
import MinC.Lib.Lines
import MinC.Sys.Passwd
import MinC.Lib.Memory
import MinC.Sys.Sched
import MinC.Sys.Pwent
import MinC.Sys.Fork
import MinC.Sys.ForkSeats
import MinC.Sys.ForkAnswers
import MinC.Lib.ByteFile
import MinC.Lib.Prog
import MinC.Win.FileObject
import MinC.Vfs.DiskFile
import MinC.Sys.OpenFiles
import MinC.Lib.Probing
import MinC.Ksh.Table
import MinC.Ksh.TableRuns
import MinC.Lib.Stretches
import MinC.Ksh.Pattern
import MinC.Ksh.PatternTrees
import MinC.Ksh.PatternScans
import MinC.Ksh.PatternClasses
import MinC.Ksh.Gmatch
