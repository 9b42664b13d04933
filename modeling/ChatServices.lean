import ChatServices.Lib.Run
import ChatServices.Accounts
import ChatServices.SaslFraming
import ChatServices.SaslStep
import ChatServices.SaslSoundness
import ChatServices.EcdsaSoundness
import ChatServices.StrictAccess
import ChatServices.ChanServ.AccessList
import ChatServices.ChanServ.AccessQuery
import ChatServices.ChanServ.Command
import ChatServices.ChanServ.CmdFlags
import ChatServices.ChanServ.CmdAccess
import ChatServices.ChanServ.CmdTemplate
import ChatServices.ChanServ.CmdAkick
import ChatServices.ChanServ.CmdClone
import ChatServices.ChanServ.Succession
import ChatServices.ChanServ.Rights
import ChatServices.ChanServ.FlagsSpec
import ChatServices.ChanServ.SelfAutomode
import ChatServices.ChanServ.AccessSpec
import ChatServices.ChanServ.TemplateSpec
import ChatServices.ChanServ.Escalation
import ChatServices.ChanServ.AccessAtomic
import ChatServices.ChanServ.CommandRun
import ChatServices.ChanServ.FoundershipGrant
import ChatServices.ChanServ.FounderRun
import ChatServices.ChanServ.FlagSlots
import ChatServices.Bans
import ChatServices.ChanServ.RoleUpdate
import ChatServices.BanNumbers
import ChatServices.ChanServ.AkickTimer
import ChatServices.ChanServ.AkickArmed
import ChatServices.ChanServ.AkickLive
import ChatServices.ChanServ.ChanacsLists
import ChatServices.ChanServ.ChanacsLoops
import ChatServices.ChanServ.AccountTables
import ChatServices.ChanServ.AccountsOk
import ChatServices.ChanServ.AccountSteps
import ChatServices.ChanServ.AccountEntries
import ChatServices.ChanServ.AccountDeletion
import ChatServices.ChanServ.AccountRun
import ChatServices.ChanServ.Channels
import ChatServices.ChanServ.SecureChannels
import ChatServices.Lib.Letters
import ChatServices.Lib.Rows
import ChatServices.Storage.FlagText
import ChatServices.Storage.ChannelTable
import ChatServices.Storage.ChannelRoundTrip
import ChatServices.Lib.Segments
import ChatServices.Net.Datastream
import ChatServices.Net.SendQueue
import ChatServices.Net.ReceiveQueue
import ChatServices.Storage.OpensexFile
import ChatServices.Entities
import ChatServices.EntityRun
import ChatServices.Network.Net
import ChatServices.Network.Frames
import ChatServices.Network.UserIndex
import ChatServices.Network.Counters
import ChatServices.Network.Servers
import ChatServices.Network.UserCounts
import ChatServices.Network.CounterRun
import ChatServices.Network.RoomsOk
import ChatServices.Network.RoomsChange
import ChatServices.Network.Membership
import ChatServices.Network.MembershipRun
import ChatServices.Network.Links
import ChatServices.Network.LoginRun
import ChatServices.Modes.Tables
import ChatServices.Modes.Effects
import ChatServices.Modes.Stack
import ChatServices.Modes.Line
import ChatServices.Modes.Pending
import ChatServices.Modes.Overlay
import ChatServices.Modes.Flush
import ChatServices.Modes.StackOps
import ChatServices.Modes.StackRun
import ChatServices.Lib.Stamped
import ChatServices.Modes.Sjoin
import ChatServices.Modes.SjoinOrder
import ChatServices.Lib.Alarm
import ChatServices.NickServ.Enforce
import ChatServices.Lib.Buckets
import ChatServices.OperServ.Clones
import ChatServices.Lib.Mutual
import ChatServices.Privs
import ChatServices.PrivsRun
import ChatServices.GroupServ.Groups
import ChatServices.GroupServ.GroupCommands
import ChatServices.GroupServ.NestedGroups
import ChatServices.GroupServ.FlagLevels
import ChatServices.GroupServ.Foundership
import ChatServices.GroupServ.FounderOrigin
import ChatServices.GroupServ.Links
import ChatServices.GroupServ.LinksRun
import ChatServices.GroupServ.GroupTable
import ChatServices.GroupServ.GroupRoundTrip
import ChatServices.ChanServ.ChannelSync
import ChatServices.ChanServ.Exttargets
import ChatServices.ChanFix.Records
import ChatServices.ChanFix.Retention
import ChatServices.ChanFix.Identity
import ChatServices.Authcookies
import ChatServices.Lib.Glob
import ChatServices.Match
import ChatServices.Cidr
import ChatServices.OperServ.AkillCoverage
import ChatServices.HostServ.Requests
import ChatServices.HostServ.UniqueHosts
import ChatServices.HostServ.Audience
import ChatServices.Lib.Interned
import ChatServices.NickServ.Registration
import ChatServices.NickServ.EmailLimits
import ChatServices.NickServ.NickOwnership
import ChatServices.Network.ServerTree
import ChatServices.Network.Netsplit
import ChatServices.NickServ.Marks
import ChatServices.NickServ.MarkHooks
import ChatServices.NickServ.MarkRun
import ChatServices.MemoServ.InboxCount
import ChatServices.OperLogin
import ChatServices.ChanServ.ChangeExact
import ChatServices.ChanServ.FlagDisjoint
import ChatServices.ChanServ.TemplateText
import ChatServices.ChanServ.TemplateStore
import ChatServices.ChanServ.TemplateNames
import ChatServices.ChanServ.SuccessorChoice
import ChatServices.BanExpiry
import ChatServices.Modes.Lock
import ChatServices.Modes.LockQueue
import ChatServices.Modes.Print
import ChatServices.Modes.PrintRun
import ChatServices.Lib.Halting
import ChatServices.MatchLanguage
import ChatServices.Collapse
import ChatServices.CidrExact
import ChatServices.ChanServ.TemplateSegments
import ChatServices.GroupServ.TemplateSafety
import ChatServices.SaslSource
import ChatServices.Lib.Scan
import ChatServices.SaslSplit
import ChatServices.ChanServ.SetMlock
import ChatServices.ChanServ.MlockExact
import ChatServices.OperServ.CloneExempts
import ChatServices.Lib.InPlace
import ChatServices.Xmlrpc.Strings
import ChatServices.Xmlrpc.RoundTrip
import ChatServices.Protocol.Base36Uid
import ChatServices.NickServ.GuestNick
import ChatServices.Replace
import ChatServices.Tokenize
import ChatServices.HostServ.RequestRate
import ChatServices.NickServ.History
import ChatServices.CommandTree
import ChatServices.FloodCheck
import ChatServices.OperServ.AkillDel
import ChatServices.MemoServ.ReadNew
import ChatServices.Lib.Cells
import ChatServices.NumberCodecs
import ChatServices.OperServ.AkillAdd
import ChatServices.SaslMechlist
import ChatServices.Protocol.P10Address
import ChatServices.Modules
