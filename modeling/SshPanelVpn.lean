import SshPanelVpn.Library.Bytes
import SshPanelVpn.Library.Runs
import SshPanelVpn.Library.Indexed
import SshPanelVpn.Library.Effects
import SshPanelVpn.Library.Sealing
import SshPanelVpn.Library.ByteStream
import SshPanelVpn.Library.Posix
import SshPanelVpn.Library.PosixNames
import SshPanelVpn.Library.PyString
import SshPanelVpn.Library.PrefixCodes
import SshPanelVpn.ShadowLink.Crypto
import SshPanelVpn.ShadowLink.Receive
import SshPanelVpn.ShadowLink.Transport
import SshPanelVpn.ShadowLink.Net
import SshPanelVpn.ShadowLink.GoTime
import SshPanelVpn.ShadowLink.Handshake
import SshPanelVpn.ShadowLink.HandshakeRun
import SshPanelVpn.ShadowLink.Frame
import SshPanelVpn.ShadowLink.FrameStream
import SshPanelVpn.ShadowLink.Proxy
import SshPanelVpn.ShadowLink.Tunnel
import SshPanelVpn.ShadowLink.Loops
import SshPanelVpn.ShadowLink.Reflection
import SshPanelVpn.ShadowLink.Bridge
import SshPanelVpn.ShadowLink.Relay
import SshPanelVpn.ShadowLink.RelayIsolation
import SshPanelVpn.ShadowLink.RelayClosing
import SshPanelVpn.ShadowLink.Client
import SshPanelVpn.ShadowLink.StreamFrames
import SshPanelVpn.ShadowLink.RelayStreams
import SshPanelVpn.ShadowLink.ClientStreams
import SshPanelVpn.ShadowLink.Link
import SshPanelVpn.ShadowLink.LinkTables
import SshPanelVpn.ShadowLink.Admission
import SshPanelVpn.Panel.Commands
import SshPanelVpn.Panel.Model
import SshPanelVpn.Panel.Calls
import SshPanelVpn.Panel.Ssh
import SshPanelVpn.Panel.CommandShapes
import SshPanelVpn.Panel.CommandSafety
import SshPanelVpn.Panel.Services
import SshPanelVpn.Panel.Operations
import SshPanelVpn.Panel.World
import SshPanelVpn.Panel.Specs
import SshPanelVpn.Panel.SshAccounts
import SshPanelVpn.Panel.ShadowLinkAccounts
import SshPanelVpn.Panel.Deeds
import SshPanelVpn.Panel.FailedChanges
import SshPanelVpn.Panel.Creation
import SshPanelVpn.Panel.Provisioning
import SshPanelVpn.Panel.Rebalance
import SshPanelVpn.Panel.ExistingUsers
import SshPanelVpn.Panel.FailedCreation
import SshPanelVpn.Panel.EntryPoints
import SshPanelVpn.Panel.Tables
import SshPanelVpn.Panel.TableSteps
import SshPanelVpn.Panel.ServiceWrites
import SshPanelVpn.Panel.OperationWrites
import SshPanelVpn.Panel.DeletedAccounts
import SshPanelVpn.Panel.AuditTrail
import SshPanelVpn.Panel.Capacity
import SshPanelVpn.ShadowLink.FramePadding
import SshPanelVpn.ShadowLink.ClientAuth
import SshPanelVpn.ShadowLink.ReplayedAuth
import SshPanelVpn.ShadowLink.MainServer
import SshPanelVpn.ShadowLink.Monitoring
import SshPanelVpn.ShadowLink.Revocation
import SshPanelVpn.ShadowLink.TokenStore
import SshPanelVpn.ShadowLink.TokenText
import SshPanelVpn.ShadowLink.TokenRestart
import SshPanelVpn.Panel.ServerHealth
import SshPanelVpn.Panel.AccountExpiry
import SshPanelVpn.Panel.HealthHistory
import SshPanelVpn.Panel.LimitsConf
import SshPanelVpn.Panel.PasswordLines
import SshPanelVpn.Panel.IsoDates
import SshPanelVpn.Panel.TrafficAccounting
import SshPanelVpn.Library.Ranks
import SshPanelVpn.Panel.BandwidthUsage
import SshPanelVpn.Panel.LoginLimit
import SshPanelVpn.Panel.SessionPeers
import SshPanelVpn.Panel.SessionLimits
import SshPanelVpn.Panel.SessionRows
import SshPanelVpn.Library.Words
import SshPanelVpn.Library.FirstInOrder
import SshPanelVpn.Panel.CreateAccount
import SshPanelVpn.Panel.Placement
import SshPanelVpn.Panel.BulkCreation
import SshPanelVpn.Panel.SucceedingSteps
import SshPanelVpn.Panel.MovedAccounts
import SshPanelVpn.Panel.RepeatedPayments
import SshPanelVpn.Panel.SetupServer
import SshPanelVpn.Panel.DeletedNames
import SshPanelVpn.Panel.TokenMigrations
import SshPanelVpn.ShadowLink.Socks5
import SshPanelVpn.ShadowLink.SocksConnection
import SshPanelVpn.ShadowLink.SocksDialogue
import SshPanelVpn.ShadowLink.SocksReplies
import SshPanelVpn.ShadowLink.SocksCopy
import SshPanelVpn.ShadowLink.SocksExchange
import SshPanelVpn.Library.Interleaving
import SshPanelVpn.Panel.SharedRow
import SshPanelVpn.Panel.RowChanges
import SshPanelVpn.Panel.LostUpdates
import SshPanelVpn.Library.PosixText
import SshPanelVpn.Panel.QuotedWords
import SshPanelVpn.ShadowLink.MessageReads
import SshPanelVpn.ShadowLink.TokenHistory
import SshPanelVpn.ShadowLink.ReplayWindow
import SshPanelVpn.ShadowLink.SessionObjects
import SshPanelVpn.ShadowLink.SessionRoster
import SshPanelVpn.ShadowLink.ExpiredSessions
import SshPanelVpn.ShadowLink.TokenLimit
import SshPanelVpn.ShadowLink.TunnelTable
import SshPanelVpn.Library.Mutex
import SshPanelVpn.ShadowLink.TrafficShaper
import SshPanelVpn.ShadowLink.CoverTraffic
import SshPanelVpn.Panel.AccountIdentity
import SshPanelVpn.Library.Renewals
import SshPanelVpn.Panel.RenewedTerms
import SshPanelVpn.Panel.DueAccounts
import SshPanelVpn.Library.LockOrder
import SshPanelVpn.ShadowLink.Locking
import SshPanelVpn.Panel.ShownPasswords
import SshPanelVpn.Panel.ClientConfigs
import SshPanelVpn.ShadowLink.SealedLink
import SshPanelVpn.ShadowLink.SocksIntegrity
import SshPanelVpn.Panel.NewServers
import SshPanelVpn.Panel.BridgeTokens
