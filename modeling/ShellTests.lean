import ShellTests.Lib.Machine
import ShellTests.Lib.Program
import ShellTests.Autoload
import ShellTests.Config
import ShellTests.CloudShell
import ShellTests.Handlers
import ShellTests.HandlerStorage
import ShellTests.Finish
import ShellTests.Ownership
import ShellTests.Creation
import ShellTests.StorageThreads
import ShellTests.StorageReads
import ShellTests.StorageReleases
import ShellTests.RunCsTests
import ShellTests.DoHandler
import ShellTests.DoRun
import ShellTests.RunTests
import ShellTests.RunOutcome
import ShellTests.RunBinding
import ShellTests.AutoloadOnce
import ShellTests.Smb
import ShellTests.ReportResult
import ShellTests.ParseConfig
import ShellTests.DownloadFiles
import ShellTests.BrokenDependencies
import ShellTests.NetworkingApps
import ShellTests.RunReports
import ShellTests.StorageReservations
import ShellTests.RunReservations
import ShellTests.RemoteFiles
import ShellTests.SandboxCreation
import ShellTests.SaveRestore
import ShellTests.Lib.Substring
import ShellTests.ResourceTree
import ShellTests.Connectivity
import ShellTests.Lib.FirstFree
import ShellTests.ResourceNames
import ShellTests.ChildAttributes
import ShellTests.SmbDirectories
import ShellTests.SmbDownload
import ShellTests.AdditionalPorts
import ShellTests.FileNames
import ShellTests.AliveHosts
import ShellTests.DebugLogs
import ShellTests.AppPositions
import ShellTests.Dependencies
import ShellTests.SmbSessions
import ShellTests.Compatibility
import ShellTests.VmConnections
import ShellTests.ConnectivityPorts
import ShellTests.DownloadLogs
import ShellTests.Lib.Attempts
import ShellTests.Packages
import ShellTests.SavedFiles
import ShellTests.ServerFiles
import ShellTests.SuiteRun
import ShellTests.InstallShell
import ShellTests.ShellsLeft
import ShellTests.StorageRefines
import ShellTests.RemoteAttempts
import ShellTests.RemoteSessions
import ShellTests.ResourcesReady
import ShellTests.RunVerdict
