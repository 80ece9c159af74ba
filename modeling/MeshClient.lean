import MeshClient.Lib.Recency
import MeshClient.Lib.OrderedMap
import MeshClient.Lib.Run
import MeshClient.Lib.FirstStep
import MeshClient.Lib.Lists
import MeshClient.Lib.ThreeWay
import MeshClient.Lib.Freshest
import MeshClient.Lib.Utf8
import MeshClient.Lib.Matcher
import MeshClient.Lib.Chunks
import MeshClient.Lib.Protobuf
import MeshClient.Lib.Base64
import MeshClient.Lib.Program
import MeshClient.Js.Text
import MeshClient.Js.Object
import MeshClient.Js.Json
import MeshClient.Mecp.Messages
import MeshClient.Incident.Types
import MeshClient.Mecp.Ack
import MeshClient.Mecp.AlertThrottle
import MeshClient.Incident.Store
import MeshClient.Incident.Prune
import MeshClient.Incident.Steps
import MeshClient.Incident.Invariant
import MeshClient.Incident.Acknowledge
import MeshClient.Incident.Capacity
import MeshClient.Incident.Replay
import MeshClient.Incident.Replay.Recovery
import MeshClient.Incident.Replay.Saved
import MeshClient.Incident.Replay.Durable
import MeshClient.Incident.Persistence
import MeshClient.Incident.Tombstones
import MeshClient.Incident.Beacon
import MeshClient.Identity.Files
import MeshClient.Identity.Slots
import MeshClient.Identity.Operations
import MeshClient.Identity.Effects
import MeshClient.Identity.Switch
import MeshClient.Identity.Keys
import MeshClient.Meshtastic.KeyVerification
import MeshClient.AutoResend.Controller
import MeshClient.AutoResend.Bounded
import MeshClient.ScheduledBroadcasts.Recurrence
import MeshClient.ScheduledBroadcasts.Store
import MeshClient.ScheduledBroadcasts.Scheduler
import MeshClient.ScheduledBroadcasts.View
import MeshClient.ScheduledBroadcasts.Running
import MeshClient.ScheduledBroadcasts.Watch
import MeshClient.ScheduledBroadcasts.Covered
import MeshClient.ScheduledBroadcasts.Missed
import MeshClient.Mqtt.ChannelKeys
import MeshClient.Mqtt.ChannelAttribution
import MeshClient.Mqtt.Inbound
import MeshClient.Mqtt.Delivery
import MeshClient.Secrets.Store
import MeshClient.Secrets.LastChange
import MeshClient.Meshcore.PathHash
import MeshClient.Meshcore.RfPath
import MeshClient.Meshcore.RfPacketParse
import MeshClient.Tak.CotFramer
import MeshClient.Meshtastic.TextPayload
import MeshClient.Meshtastic.UrlEncoder
import MeshClient.Reticulum.RrcCodec
import MeshClient.Messages.Record
import MeshClient.Messages.Store
import MeshClient.Messages.Writes
import MeshClient.Messages.ChatMessage
import MeshClient.Meshcore.RelayCoverage
import MeshClient.Meshcore.HeardRepeatTracker
import MeshClient.Meshcore.MessageDedup
import MeshClient.Meshcore.StoreDedup
import MeshClient.Meshcore.Ingest
import MeshClient.Lib.Delta
import MeshClient.Tak.ContactCache
import MeshClient.Tak.ContactStream
import MeshClient.Lib.Holdoff
import MeshClient.Lib.Delimited
import MeshClient.Mecp.Rebroadcast
import MeshClient.Mecp.RebroadcastRuns
import MeshClient.Lib.Turns
import MeshClient.Meshcore.RepeaterRpc
import MeshClient.Meshcore.RepeaterRpcRuns
import MeshClient.Lib.Trim
import MeshClient.Lib.TextLines
import MeshClient.Lib.Tally
import MeshClient.Reticulum.ConfigFile
import MeshClient.Reticulum.ConfigLines
import MeshClient.Reticulum.ConfigPlaces
import MeshClient.Reticulum.ConfigRewrite
import MeshClient.Reticulum.ConfigReread
import MeshClient.Reticulum.ConfigRoundTrip
import MeshClient.Reticulum.RrcSession
import MeshClient.Reticulum.RrcIntent
import MeshClient.Reticulum.RrcRuns
import MeshClient.Tak.GeochatSurvives
import MeshClient.Reconnect.Runs
import MeshClient.Tcp.LiveLink
import MeshClient.Flasher.Kiss
import MeshClient.Meshcore.TxEchoRuns
import MeshClient.Meshcore.RepeaterCommandAnswers
import MeshClient.Meshcore.TraceMultiplexApart
import MeshClient.Meshcore.RoomLoginService
import MeshClient.Reticulum.OutboundRuns
import MeshClient.Incident.ReturnedId
import MeshClient.ScheduledBroadcasts.SkipMissed
import MeshClient.Reticulum.PnCascade
import MeshClient.Messages.LiveTrim
import MeshClient.Meshcore.RoomChunks
import MeshClient.Meshtastic.ChannelPskLine
import MeshClient.Meshcore.WireReply
import MeshClient.Net.GlobalAddress
import MeshClient.Net.ConnectConsistency
import MeshClient.Reticulum.StackSettings
import MeshClient.Reticulum.StackSettingsReread
import MeshClient.Reticulum.StackSettingsForms
import MeshClient.Reticulum.StackSettingsPersist
import MeshClient.Reticulum.InterfaceMove
import MeshClient.Meshcore.CompanionQueue
import MeshClient.Meshcore.CompanionRuns
import MeshClient.Reticulum.PathFailover
import MeshClient.Reticulum.PathFailoverEnds
import MeshClient.Reticulum.IngestMerge
import MeshClient.Reticulum.AttachmentName
import MeshClient.Reticulum.AttachmentNameCap
import MeshClient.OfflineMaps.TileMath
import MeshClient.OfflineMaps.TileCover
import MeshClient.OfflineMaps.TileRegion
import MeshClient.Lib.BigEndian
import MeshClient.Lib.PrefixCode
import MeshClient.Meshtastic.CayenneFields
import MeshClient.Meshtastic.CayenneDecode
import MeshClient.Reticulum.Topology
import MeshClient.Reticulum.VoiceMemo
import MeshClient.Reticulum.VoiceMemoRuns
import MeshClient.Tak.ChannelReplies
import MeshClient.Tak.ChannelRepliesResolve
import MeshClient.OfflineMaps.Downloader
import MeshClient.OfflineMaps.DownloaderJobs
import MeshClient.OfflineMaps.DownloaderEnds
import MeshClient.OfflineMaps.DownloaderRuns
import MeshClient.Lib.BitGroups
import MeshClient.Reticulum.IdentityImport
import MeshClient.Lib.XorLinear
import MeshClient.Js.Bits
import MeshClient.Flasher.Nrf52Dfu
import MeshClient.Flasher.Nrf52DfuStream
import MeshClient.Js.Units
import MeshClient.Ai.SummaryPrompt
import MeshClient.Ai.SummaryChunking
import MeshClient.Ai.SummaryPacked
import MeshClient.Ai.SummaryWhole
import MeshClient.Lib.Utf8Stream
import MeshClient.Lib.Ascents
import MeshClient.Meshtastic.RemoteShell
import MeshClient.Meshtastic.RemoteShellSession
import MeshClient.Meshtastic.RemoteShellTranscript
import MeshClient.Meshtastic.RemoteShellInput
import MeshClient.Reticulum.InboundCatchUp
