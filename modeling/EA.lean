import EA.TsoNode
import EA.TsoClusterInv
import EA.TsoTerm
import EA.TsoCluster
import EA.TsoUnique
import EA.Lib.ByteString
import EA.Lib.Index
import EA.Lib.Mirror
import EA.DiscoveryMessages
import EA.MetaDb
import EA.ConfigManager
import EA.InstanceManager
import EA.PrivilegeManager
import EA.DiscoveryQuery
import EA.DiscoveryRuns
import EA.Lib.Registry
import EA.SchemaSteps
import EA.Catalog
import EA.SchemaLoad
import EA.CatalogRuns
import EA.Lib.Nested
import EA.SnapshotRestore
import EA.ConfigSnapshot
import EA.InstanceIndex
import EA.ServletIndex
import EA.ErrorAtomicity
import EA.Lib.Lockstep
import EA.ReplicaDeterminism
import EA.AutoIncr
import EA.TsoBound
import EA.TsoSnapshot
import EA.CatalogIds
import EA.ClientUtility
import EA.ConfigCache
import EA.CacheDirectory
import EA.ConfigClient
import EA.WatchReplace
import EA.WatchChain
import EA.DiscoveryClient
import EA.ClientOperations
import EA.ClientStatus
import EA.ClientRequests
import EA.ClientListings
import EA.LatestConfig
import EA.Lib.Keyed
import EA.PrivilegeLevels
import EA.ServletOrigin
import EA.PrivilegeScope
import EA.ServletTargets
import EA.ConfigRemoval
import EA.ConfigVersions
import EA.CounterRollback
import EA.GenTso
import EA.TsoReset
import EA.QualifiedNames
import EA.ConfigKeys
import EA.CacheLookups
import EA.RaftControl
import EA.RaftCmd
import EA.Lib.Retry
import EA.DiscoverySender
import EA.RouterService
import EA.FlattenPrivileges
import EA.InstanceCommands
import EA.IncrementalUpdate
import EA.Lib.Shards
import EA.ThreadSafeMap
import EA.DiscoveryDirectory
import EA.DirectoryRuns
import EA.DiscoveryServer
import EA.ServerAnswers
import EA.InstanceLives
import EA.Lib.Writes
import EA.Lib.Service
import EA.DiscoveryNode
import EA.NodeInvariant
import EA.NodeRecovery
import EA.CatalogService
import EA.ServiceOrder
import EA.CounterService
import EA.CounterRanges
import EA.Bthread
import EA.ConfigShelf
import EA.ConfigReads
