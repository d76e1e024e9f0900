import Mcelog.Common.Run
import Mcelog.Bucket.Model
import Mcelog.Bucket.Threshold
import Mcelog.Common.Lines
import Mcelog.Msg.Syslog
import Mcelog.Common.Transition
import Mcelog.Trigger.Model
import Mcelog.Trigger.Slots
import Mcelog.Decode.Mca
import Mcelog.Memory.Memdb
import Mcelog.Memory.Location
import Mcelog.Common.IntrusiveList
import Mcelog.Common.SearchTree
import Mcelog.Page.Store
import Mcelog.Page.Account
import Mcelog.Page.Lru
import Mcelog.Page.Backoff
import Mcelog.Common.Numeral
import Mcelog.Common.Scanf
import Mcelog.Bucket.Rate
import Mcelog.Filter.Model
import Mcelog.Filter.Classify
import Mcelog.Filter.Neutral
import Mcelog.Ascii.Model
import Mcelog.Ascii.Tokens
import Mcelog.Ascii.Fatal
import Mcelog.Ascii.Dump
import Mcelog.Ascii.Date
import Mcelog.Ascii.Text
import Mcelog.Ascii.Reparse
import Mcelog.Memory.Totals
import Mcelog.Memory.Dump
import Mcelog.Memory.Query
import Mcelog.Trigger.Sync
import Mcelog.Trigger.Table
import Mcelog.Page.Charge
import Mcelog.Page.Map
import Mcelog.Page.Limit
import Mcelog.Page.Offlining
import Mcelog.Event.Loop
import Mcelog.Event.Readiness
import Mcelog.Server.Dispatch
import Mcelog.Server.Client
import Mcelog.Server.Answer
import Mcelog.Server.Connection
import Mcelog.Ascii.Syntax
import Mcelog.Ascii.Records
import Mcelog.Ascii.CpuNumber
import Mcelog.Ascii.RawDump
import Mcelog.Ascii.Cpuid
import Mcelog.Bucket.RateText
import Mcelog.Bucket.Window
import Mcelog.Bucket.Grammar
import Mcelog.Bucket.Idle
import Mcelog.Common.CString
import Mcelog.Common.Chain
import Mcelog.Common.Getopt
import Mcelog.Config.Model
import Mcelog.Config.Line
import Mcelog.Config.Lookup
import Mcelog.Config.Options
import Mcelog.Server.Access
import Mcelog.Machine.Detect
import Mcelog.Decode.Bitfield
import Mcelog.Decode.Core
import Mcelog.Decode.Bridge
import Mcelog.Decode.Diamond
import Mcelog.Decode.Granite
import Mcelog.Decode.I10nm
import Mcelog.Decode.Sapphire
import Mcelog.Decode.Kh
import Mcelog.Decode.Record
import Mcelog.Decode.Filtering
import Mcelog.Config.Settings
import Mcelog.Daemon.Setup
import Mcelog.Daemon.Division
import Mcelog.Daemon.Thresholds
import Mcelog.Common.Bytes
import Mcelog.Common.Walk
import Mcelog.Dmi.Table
import Mcelog.Dmi.Walk
import Mcelog.Common.Comparator
import Mcelog.Dmi.Ranges
import Mcelog.Dmi.Sanity
import Mcelog.Dmi.Open
import Mcelog.Dmi.Lookup
import Mcelog.Dmi.Handles
import Mcelog.Dmi.Strings
import Mcelog.Dmi.BankLocator
import Mcelog.Dmi.Prefill
import Mcelog.Dmi.Consumers
import Mcelog.Common.HashChains
import Mcelog.Memory.Map
import Mcelog.Cache.Cpumap
import Mcelog.Cache.Affected
import Mcelog.Ascii.Cursor
import Mcelog.Ascii.Progress
import Mcelog.Common.RbTree
import Mcelog.Rbtree.Node
import Mcelog.Rbtree.Shape
import Mcelog.Rbtree.Insert
import Mcelog.Rbtree.Erase
import Mcelog.Rbtree.Walk
import Mcelog.Rbtree.Delete
import Mcelog.Rbtree.Sequence
import Mcelog.Rbtree.Search
import Mcelog.Page.Tree
import Mcelog.Server.PageDump
import Mcelog.Common.Layout
import Mcelog.Machine.Layout
import Mcelog.Daemon.Cpuinfo
import Mcelog.Daemon.Feed
import Mcelog.Common.Override
import Mcelog.Msg.Routing
import Mcelog.Daemon.Modifier
import Mcelog.Daemon.Logging
import Mcelog.Dmi.Sysfs
import Mcelog.Cache.Topology
import Mcelog.Config.Render
import Mcelog.Memory.Entries
