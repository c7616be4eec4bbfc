import XdxContainer.Ebpf.Machine
import XdxContainer.Ebpf.Exec
import XdxContainer.Cgroup.DeviceFilter
import XdxContainer.Cgroup.Layout
import XdxContainer.Cgroup.FilterMeaning
import XdxContainer.Cgroup.AddDeviceRules
import XdxContainer.Fs.Tree
import XdxContainer.Path.Resolve
import XdxContainer.Control.Fallible
import XdxContainer.Mount.Code
import XdxContainer.Mount.Table
import XdxContainer.Mount.Faults
import XdxContainer.Mount.DriverMount
import XdxContainer.Mount.DeviceMount
import XdxContainer.Mount.MigMount
import XdxContainer.Fs.Edit
import XdxContainer.Fs.World
import XdxContainer.Fs.Create
import XdxContainer.Fs.Remove
import XdxContainer.Mount.Live
import XdxContainer.Mount.Rollback
import XdxContainer.Mount.Confine
import XdxContainer.Cli.SelectDevices
import XdxContainer.Cli.Dsl
import XdxContainer.Cli.Configure
import XdxContainer.Cgroup.Remote
import XdxContainer.Cgroup.Procfs
import XdxContainer.Cgroup.Locate
import XdxContainer.Control.Machine
import XdxContainer.Rpc.Descriptors
import XdxContainer.Rpc.Processes
import XdxContainer.Mount.Namespace
import XdxContainer.Data.Slots
import XdxContainer.Mount.Arrays
import XdxContainer.Mount.Contents
import XdxContainer.Ldcache.Bounds
import XdxContainer.Cli.Predicates
import XdxContainer.Cli.Terms
import XdxContainer.Cli.Tokens
import XdxContainer.Cli.Versions
import XdxContainer.Cgroup.Grants
import XdxContainer.Mount.Options
import XdxContainer.Data.Cascade
import XdxContainer.Ldcache.Table
import XdxContainer.Ldcache.Libraries
import XdxContainer.Ldcache.Lookup
import XdxContainer.Cgroup.Legacy
import XdxContainer.Cli.OrderFree
import XdxContainer.Text.Numerals
import XdxContainer.Cli.BusIds
import XdxContainer.Cli.Denotes
import XdxContainer.Path.Run
import XdxContainer.Path.Idempotent
import XdxContainer.Path.LinkLimit
import XdxContainer.Path.Buffers
import XdxContainer.Mount.ReadText
import XdxContainer.Mount.AppProfile
import XdxContainer.Perm.Drop
import XdxContainer.Ldcache.Update
import XdxContainer.Mount.Majors
import XdxContainer.Mount.DriSearch
import XdxContainer.Cgroup.Numbers
import XdxContainer.Path.Turns
import XdxContainer.Cgroup.Labels
import XdxContainer.Cli.UserIds
import XdxContainer.Cli.ConfigureParser
import XdxContainer.Data.Block
import XdxContainer.Ldcache.DriverInfo
import XdxContainer.Fs.Cleanup
import XdxContainer.Data.CString
import XdxContainer.Path.Joining
import XdxContainer.Fs.Ancestors
import XdxContainer.Xdr.Codec
import XdxContainer.Xdr.Words
import XdxContainer.Xdr.Program
import XdxContainer.Rpc.Messages
import XdxContainer.Rpc.Errors
import XdxContainer.Driver.Service
import XdxContainer.Driver.Client
import XdxContainer.Driver.Simulation
import XdxContainer.Driver.Session
import XdxContainer.Driver.Inventory
import XdxContainer.Rpc.Nvcgo
import XdxContainer.Driver.Requests
import XdxContainer.Perm.Kernel
import XdxContainer.Perm.Calls
import XdxContainer.Cli.Privileges
import XdxContainer.Perm.Children
