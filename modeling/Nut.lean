import Nut.Common.FormattingBounds
import Nut.Drivers.ShutdownOrder
import Nut.Server.Logout
import Nut.Drivers.HidReports
import Nut.Clients.TimerArrays
import Nut.Clients.TimerListing
import Nut.Clients.Requests
import Nut.Drivers.FailoverElection
import Nut.Drivers.FailoverBooks
import Nut.Drivers.FailoverOutage
import Nut.Drivers.Upsdrvquery
import Nut.Clients.UpsmonSpells
import Nut.Clients.UpsmonStatus
import Nut.Drivers.DummyPasses
import Nut.Drivers.TransportLengths
import Nut.Drivers.EcoflowFrames
import Nut.Drivers.GpioBounds
import Nut.Tools.IpRanges
import Nut.Clients.AuthconfRoundTrip
import Nut.Drivers.Restart
import Nut.Common.ParseConfBounds
import Nut.Drivers.Overrides
import Nut.Clients.CgilibPost
import Nut.Clients.NutclientRequests
import Nut.Common.ParseConfStorage
import Nut.Drivers.CloneSeparation
import Nut.Drivers.CypressReplies
import Nut.Drivers.QxWalk
import Nut.Server.UserFile
import Nut.Drivers.HidLookup
import Nut.Drivers.HidRanges
import Nut.Drivers.HidComponents
import Nut.Common.NutWriter
import Nut.Common.GenericConfiguration
import Nut.Clients.SplitName
import Nut.Network.ReadPath
import Nut.Network.Hostsync
import Nut.Network.WritePath
