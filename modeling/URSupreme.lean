import URSupreme.Clock.Runs
import URSupreme.Discovery.StampJobs
import URSupreme.Discovery.StampValue
import URSupreme.LXMF.Announce
import URSupreme.LXMF.AnnounceLog
import URSupreme.LXMF.PackRoom
import URSupreme.LXMF.PayloadExact
import URSupreme.LXMF.SlotReuse
import URSupreme.LXMF.Ratchets
import URSupreme.LXMF.ScreenFlag
import URSupreme.LXMF.RoundTrip
import URSupreme.LXMF.Deadlines
import URSupreme.LXMF.InFlight
import URSupreme.LXMF.Budget
import URSupreme.LXMF.Opportunistic
import URSupreme.LXMF.SeenRing
import URSupreme.LXMF.Recycled
import URSupreme.LXMF.Unverified
import URSupreme.LXMF.AutoSend
import URSupreme.LXMF.InboxPoll
import URSupreme.LXMF.OnRemove
import URSupreme.Radio.Airtime
import URSupreme.Radio.Framing
import URSupreme.Radio.SerialInput
import URSupreme.Radio.TxRingCount
import URSupreme.Radio.TxHold
import URSupreme.Receive.RnsConcludeRuns
import URSupreme.LXMF.WalkSafety
import URSupreme.Storage.Migration
import URSupreme.Storage.Uploads
import URSupreme.Storage.SdWriterRuns
import URSupreme.Storage.SdWriterParks
import URSupreme.LXMF.GpxTrack
import URSupreme.Telemetry.TelemeterRoundTrip
import URSupreme.Web.AuthTokens
import URSupreme.Web.WebSocket
import URSupreme.Wifi.Exposure
import URSupreme.Wifi.Provision
import URSupreme.Transport.TcpClientRuns
import URSupreme.Transport.ServiceClients
import URSupreme.Transport.HDLC
import URSupreme.LXMF.Retention
import URSupreme.Web.TileId
import URSupreme.Web.BuildDirectories
import URSupreme.Web.MapJobRuns
import URSupreme.LXMF.MessengerRuns
import URSupreme.LXMF.TelemetryMeta
import URSupreme.Wifi.RxWatchdog
import URSupreme.Wifi.Credentials
import URSupreme.Discovery.Announcer
import URSupreme.Discovery.StampCache
import URSupreme.Web.IdentityCode
import URSupreme.Storage.Capacity
import URSupreme.Radio.Csma
import URSupreme.Sensors.MaxM10
import URSupreme.Sensors.M10Config
import URSupreme.Sensors.Acquisition
import URSupreme.Sensors.PCF8563
import URSupreme.Sensors.QMC6310
import URSupreme.Sensors.GsvView
import URSupreme.Sensors.NmeaSound
import URSupreme.Radio.HostCommands
import URSupreme.Telemetry.TelemeterEntries
import URSupreme.Utilities.Fifo
import URSupreme.Clock.AbsoluteDeadlines
import URSupreme.LXMF.ConfirmPage
import URSupreme.Web.SettingsAtomic
import URSupreme.Web.Scanline
