import SettingStore.Main
import SettingStore.Record
import SettingStore.Store.Directory
import SettingStore.Store.Memory
import SettingStore.Store.Table.Direct
import SettingStore.Proofs.Service.Repair
import SettingStore.Proofs.Service.Contents
import SettingStore.Proofs.Service.Durable
import SettingStore.Proofs.Service.Interchange
import SettingStore.Proofs.Store.Attainable
import SettingStore.Proofs.Service.Frame
import SettingStore.Proofs.Service.Guarded
import SettingStore.Proofs.Session.Among
import SettingStore.Proofs.Service.Steady
import SettingStore.Proofs.Service.Interleaved
import SettingStore.Proofs.Plugin.Reachability
import SettingStore.Proofs.Plugin.Order
import SettingStore.Proofs.Core.Admits
import SettingStore.Proofs.Service.SetAgain
import SettingStore.Proofs.Service.StoredValues
import SettingStore.Proofs.Plugin.Repeats
import SettingStore.Proofs.Plugin.Restated
import SettingStore.Proofs.Store.UniqueIndexes
import SettingStore.Proofs.Origin.Ipv4
import SettingStore.Proofs.Origin.Ipv6
import SettingStore.Proofs.Origin.Host
import SettingStore.Proofs.Origin.BaseAddress
import SettingStore.Proofs.Store.Saving
import SettingStore.Proofs.Store.Entities
import SettingStore.Proofs.Json.Reading
import SettingStore.Proofs.Record
import SettingStore.Proofs.Store.Snapshot
import SettingStore.Proofs.CommandLine.Runs
import SettingStore.Proofs.Store.Ids
import SettingStore.Proofs.Store.Queries
import SettingStore.Proofs.EntityId
import SettingStore.Proofs.Service.WholeNumbers
import SettingStore.Proofs.Text.NormalEntries
import SettingStore.Proofs.Service.CollectionPolicy
import SettingStore.Proofs.Text.LowerCase
import SettingStore.Proofs.Service.WordSettings
import SettingStore.Proofs.Plugin.Argument
import SettingStore.Proofs.CommandLine.Listing
import SettingStore.Proofs.Store.IndexNames
