import Maubot.Cli.Written
import Maubot.Cli.Servers
import Maubot.Client.Configuration
import Maubot.Config
import Maubot.Client.NextBatch
import Maubot.Client.Retries
import Maubot.Client.Fields
import Maubot.Deletion
import Maubot.Handlers.Arguments
import Maubot.Handlers.Passive
import Maubot.Handlers.Spelling
import Maubot.Handlers.Usage
import Maubot.Instance.Acting
import Maubot.Instance.Concurrency
import Maubot.Instance.Databases
import Maubot.Instance.Engine
import Maubot.Instance.Introspection
import Maubot.Instance.Versions
import Maubot.Management.ClientApi
import Maubot.Management.Credentials
import Maubot.Management.InUse
import Maubot.Management.InstanceApi
import Maubot.Management.LogViewer
import Maubot.Management.Middleware
import Maubot.Management.UploadPaths
import Maubot.Management.Rollback
import Maubot.Management.RowDeletion
import Maubot.Management.Sso
import Maubot.Lib.OsPath
import Maubot.Matrix
import Maubot.PluginDb
import Maubot.PluginRoutes
import Maubot.Registry
import Maubot.Sessions
import Maubot.Scheduler
import Maubot.SearchPath
import Maubot.Standalone
import Maubot.Loader.Caches
import Maubot.Loader.Installed
import Maubot.Loader.FileLists
import Maubot.Loader.Tables
import Maubot.Loader.Preload
import Maubot.Client.Tombstone
import Maubot.Handlers.RegexArgument
import Maubot.Handlers.BoundTree
import Maubot.Loader.Unload
import Maubot.Management.Login
import Maubot.Management.ClientProxy
