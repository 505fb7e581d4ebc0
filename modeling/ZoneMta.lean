import ZoneMta.ForStd.AList
import ZoneMta.ForStd.Ascii
import ZoneMta.ForStd.Hex
import ZoneMta.ForStd.Infix
import ZoneMta.ForStd.List
import ZoneMta.ForStd.Mealy
import ZoneMta.ForStd.Text
import ZoneMta.ForStd.Replace
import ZoneMta.ForStd.Stream
import ZoneMta.ForStd.Transition
import ZoneMta.ForStd.Retry
import ZoneMta.ForStd.UpdateOperators
import ZoneMta.ForStd.Framing
import ZoneMta.ForStd.GoString
import ZoneMta.ForStd.Squeeze
import ZoneMta.ForStd.Lookbehind
import ZoneMta.ForStd.Calendar
import ZoneMta.ForStd.Expiring
import ZoneMta.ForStd.MsgPack
import ZoneMta.ForStd.Collection
import ZoneMta.Native.Buffer
import ZoneMta.Native.LineEnds
import ZoneMta.Native.DkimRelaxedBody
import ZoneMta.Native.FrameParser
import ZoneMta.Native.Sender
import ZoneMta.Native.SenderErrors
import ZoneMta.Native.SmtpSession
import ZoneMta.Native.GoQueue
import ZoneMta.Native.GoWorkers
import ZoneMta.Native.GoDelivery
import ZoneMta.Native.GoManager
import ZoneMta.Native.GoPlugins
import ZoneMta.Native.RateLimiter
import ZoneMta.Native.Bounces
import ZoneMta.Native.GoConfig
import ZoneMta.Native.PluginHandler
import ZoneMta.Native.EmailBounce
import ZoneMta.Native.PushHooks
import ZoneMta.Native.DkimSign
import ZoneMta.Spec.RelaxedHeader
import ZoneMta.Spec.FrameParserCorrect
import ZoneMta.Spec.SenderCorrect
import ZoneMta.Native.QueueLocker
import ZoneMta.Native.Database
import ZoneMta.Native.Master
import ZoneMta.Native.SendingZone
import ZoneMta.Native.AddressPool
import ZoneMta.Native.Speedometer
import ZoneMta.Native.Push
import ZoneMta.Native.MailDrop
import ZoneMta.Native.Attempts
import ZoneMta.Native.TtlCache
import ZoneMta.Native.Net
import ZoneMta.Native.ConnectionPool
import ZoneMta.Native.Connection
import ZoneMta.Native.Blacklist
import ZoneMta.Spec.QueueLockerCorrect
import ZoneMta.Spec.DatabaseCorrect
import ZoneMta.Spec.MasterCorrect
import ZoneMta.Spec.ConnectionLimit
import ZoneMta.Spec.Disconnect
import ZoneMta.Spec.Holds
import ZoneMta.Spec.Garbage
import ZoneMta.Spec.Release
import ZoneMta.Spec.TtlCacheCorrect
import ZoneMta.Spec.TtlCacheSorted
import ZoneMta.Spec.GoQueueCorrect
import ZoneMta.Spec.GoWorkersCorrect
import ZoneMta.Spec.GoDeliveryCorrect
import ZoneMta.Spec.GoManagerCorrect
import ZoneMta.Spec.GoManagerEvents
import ZoneMta.Spec.GoRounds
import ZoneMta.Spec.GoStore
import ZoneMta.Spec.GoLocks
import ZoneMta.Spec.GoPluginsCorrect
import ZoneMta.Spec.GoConfigMerge
import ZoneMta.Spec.PluginHandlerCorrect
import ZoneMta.Spec.Eligible
import ZoneMta.Spec.EmailBounceCorrect
import ZoneMta.Spec.ShiftReturns
import ZoneMta.Spec.PushCorrect
import ZoneMta.Spec.DkimSignCorrect
import ZoneMta.Spec.UnexpectedClose
import ZoneMta.Spec.AddressPoolCorrect
import ZoneMta.Spec.SpeedometerCorrect
import ZoneMta.Spec.LineEndsCorrect
import ZoneMta.Spec.RelaxedBody
import ZoneMta.Spec.FixBody
import ZoneMta.Spec.DkimRelaxedBodyCorrect
import ZoneMta.Spec.Lines
import ZoneMta.Spec.BlacklistCorrect
import ZoneMta.Spec.ConnectionPoolCorrect
import ZoneMta.Native.Pool
import ZoneMta.Spec.PoolCorrect
import ZoneMta.Spec.ConnectionCorrect
import ZoneMta.Spec.LockReleased
import ZoneMta.Spec.MailDropCorrect
import ZoneMta.Spec.Routing
import ZoneMta.Spec.Scheduled
import ZoneMta.Spec.SkipDomains
import ZoneMta.Spec.SmtpSessionCorrect
import ZoneMta.Spec.SmtpEnvelope
import ZoneMta.Spec.RateLimiterCorrect
import ZoneMta.Spec.FormatResponse
import ZoneMta.Spec.FormatResponseCorrect
import ZoneMta.Spec.StartTls
import ZoneMta.Spec.Attempt
import ZoneMta.Spec.Copies
import ZoneMta.Spec.DeferTimes
import ZoneMta.Spec.BodyHash
import ZoneMta.Spec.LockTables
import ZoneMta.Spec.LockTimer
import ZoneMta.Spec.PoolUse
import ZoneMta.Native.ZoneUpdate
import ZoneMta.Spec.ZoneUpdateCorrect
import ZoneMta.Native.SenderService
import ZoneMta.Spec.SenderServiceCorrect
import ZoneMta.Native.SpawnSenders
import ZoneMta.Spec.SpawnSendersCorrect
import ZoneMta.Spec.DelayNotice
import ZoneMta.Spec.SparesHeld
import ZoneMta.Native.DeferUpdates
import ZoneMta.Spec.DeferUpdatesCorrect
import ZoneMta.Native.Shift
import ZoneMta.Spec.ShiftCorrect
import ZoneMta.Spec.EmailBounceQueue
import ZoneMta.Spec.ShiftTask
import ZoneMta.Native.StoreStream
import ZoneMta.Spec.StoreStreamCorrect
import ZoneMta.ForStd.OrderedMap
import ZoneMta.Native.AddressTools
import ZoneMta.Spec.AddressToolsCorrect
import ZoneMta.Native.Suppression
import ZoneMta.Spec.SuppressionCorrect
import ZoneMta.Native.DomainConfig
import ZoneMta.Spec.DomainConfigCorrect
import ZoneMta.Spec.PreparePluginsCorrect
import ZoneMta.Native.ConnectionEvents
import ZoneMta.Spec.ConnectionEventsCorrect
import ZoneMta.Native.Clamav
import ZoneMta.Spec.ClamavCorrect
import ZoneMta.Native.RspamdClient
import ZoneMta.Spec.RspamdClientCorrect
import ZoneMta.Native.GetConnection
import ZoneMta.Spec.GetConnectionCorrect
import ZoneMta.Spec.Answers
import ZoneMta.ForStd.RoundRobin
import ZoneMta.ForStd.LiveSet
import ZoneMta.Native.SmtpProxy
import ZoneMta.Spec.SmtpProxyCorrect
import ZoneMta.Native.SendCommand
import ZoneMta.Spec.SendCommandCorrect
import ZoneMta.Spec.SmtpPipelining
import ZoneMta.Spec.GoDue
import ZoneMta.Spec.Departures
import ZoneMta.Native.DomainCache
import ZoneMta.Spec.DomainCacheCorrect
