import Cpm.Lib.CString
import Cpm.Lib.Paths
import Cpm.Lib.Table
import Cpm.Base.ThingModel
import Cpm.Base.Json
import Cpm.Mqtt.Topic
import Cpm.Mqtt.Service
import Cpm.Adapter.Adapter
import Cpm.Persist.ThingDb
import Cpm.Core.NodeManager
import Cpm.Core.Forward
import Cpm.Adapter.ThingModelMsg
import Cpm.Core.Routing
import Cpm.Lib.Bytes
import Cpm.Lib.Ieee
import Cpm.Base.Value
import Cpm.Core.Reply
import Cpm.Core.Lifecycle
import Cpm.Driver.Cache
import Cpm.Lib.Run
import Cpm.Driver.CacheMap
import Cpm.Driver.CacheEffect
import Cpm.Driver.CacheRefine
import Cpm.Driver.CacheChange
import Cpm.Base.Tag
import Cpm.Base.Group
import Cpm.Driver.Driver
import Cpm.Driver.Read
import Cpm.Driver.GroupOps
import Cpm.Driver.Edits
import Cpm.Driver.Fitting
import Cpm.Driver.Detect
import Cpm.Driver.Groups
import Cpm.Driver.Tally
import Cpm.Driver.Announce
import Cpm.Driver.Valid
import Cpm.Driver.Agree
import Cpm.Driver.ReadTick
import Cpm.Lib.Mailbox
import Cpm.Driver.Write
import Cpm.Driver.Answer
import Cpm.Core.Broadcast
import Cpm.Persist.Counters
import Cpm.Persist.Schemas
import Cpm.Lib.Dialogue
import Cpm.Base.Jansson
import Cpm.Rest.TagJson
import Cpm.Rest.GlobalConfig
import Cpm.Rest.PutConfig
import Cpm.Rest.GetConfig
import Cpm.Lib.Decode
import Cpm.Rest.TagRoundTrip
import Cpm.Rest.DecodeConfig
import Cpm.Rest.RoundTrip
import Cpm.Mqtt.Chain
import Cpm.Mqtt.Extraction
import Cpm.Adapter.TopicRoundTrip
import Cpm.Core.FaultIsolation
import Cpm.Core.Reload
import Cpm.Core.ManagerLoop
import Cpm.Utils.Jwt
import Cpm.Lib.IeeeCast
import Cpm.Rest.ElementRoundTrip
import Cpm.Persist.TagRows
import Cpm.Driver.CacheBlocks
import Cpm.Core.AddNode
import Cpm.Lib.Words
import Cpm.Driver.CacheSame
import Cpm.Driver.CacheDrift
import Cpm.Driver.AddBatch
import Cpm.Driver.Orderly
import Cpm.Driver.ReadMap
import Cpm.Driver.Rebuild
import Cpm.Driver.StaticWrite
import Cpm.Driver.WriteFrame
import Cpm.Driver.Scaling
import Cpm.Driver.TagValue
import Cpm.Driver.StaticRoundTrip
import Cpm.Driver.Given
import Cpm.Driver.Configured
import Cpm.Driver.BatchAgree
import Cpm.Driver.WriteTags
import Cpm.Driver.Report
import Cpm.Driver.ReportMap
import Cpm.Driver.ReportRun
import Cpm.Driver.Expiry
import Cpm.Driver.GroupError
import Cpm.Driver.Rename
import Cpm.Lib.IeeeValue
import Cpm.Rest.Meaning
import Cpm.Rest.StaticFaithful
import Cpm.Rest.ReadResp
import Cpm.Base.AddrOption
import Cpm.Lib.Pieces
import Cpm.Base.Utf8
import Cpm.Base.StringLayout
import Cpm.Base.Elements
import Cpm.Lib.Memory
import Cpm.Lib.Numerals
import Cpm.Lib.Search
import Cpm.Rest.ReadFormats
import Cpm.Rest.Request
import Cpm.Rest.TagSpec
import Cpm.Rest.TagsReq
import Cpm.Rest.WriteHandlers
import Cpm.Utils.Http
import Cpm.Utils.NumericParam
import Cpm.Utils.UrlDecode
import Cpm.Base.TypeErrors
import Cpm.Rest.ByteArrays
import Cpm.Rest.WriteTagsReq
import Cpm.Utils.Query
import Cpm.Lib.Buffer
import Cpm.Lib.BinarySearch
import Cpm.Lib.SqlText
import Cpm.Lib.SqlStatement
import Cpm.Persist.PathCat
import Cpm.Persist.ReadFile
import Cpm.Persist.StoreTags
import Cpm.Persist.Plugins
import Cpm.Persist.TagStatements
import Cpm.Utils.HttpProxy
import Cpm.Lib.Chains
import Cpm.Utils.Uthash
import Cpm.Utils.UthashRun
import Cpm.Core.NodeTable
import Cpm.Core.NodeAgree
import Cpm.Core.PluginManager
import Cpm.Core.Boot
import Cpm.Core.Shutdown
import Cpm.Lib.Sextets
import Cpm.Rest.User
import Cpm.Rest.Handlers
import Cpm.Rest.Dashboard
import Cpm.Rest.Requests
import Cpm.Rest.RequestCodec
import Cpm.Driver.Devices
import Cpm.Utils.Args
import Cpm.Mqtt.Arrival
