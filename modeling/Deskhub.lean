import Deskhub.Transfer.SafeNameCut
import Deskhub.Transfer.SharedDirectory
import Deskhub.Session.FileUploadLink
import Deskhub.Session.VideoRepair
import Deskhub.Session.FileCancelled
import Deskhub.Session.TerminalSizes
import Deskhub.Host.TerminalStream
import Deskhub.Terminal.RepaintTells
import Deskhub.Terminal.VtResync
import Deskhub.Terminal.ScreenHistory
import Deskhub.Terminal.ScrollAnchored
import Deskhub.Terminal.ScreenAddressing
import Deskhub.Input.ClientInputQueue
import Deskhub.Protocol.Wire.Messages
import Deskhub.Session.ScreenHostDriving
import Deskhub.Session.ScreenRejoin
import Deskhub.Session.ScreenClientEnds
import Deskhub.Session.ClipboardAgree
import Deskhub.Net.AuthorizedKeys
import Deskhub.Net.AccessRequestsFile
import Deskhub.Net.TransportAuthenticated
import Deskhub.Net.TransportOneHandshake
import Deskhub.Session.UnattendedControl
import Deskhub.Session.SecureDesktopStream
import Deskhub.Auth.FailureLimiterWindow
import Deskhub.Transport.AudioPlayed
import Deskhub.Qr.QrCarries
import Deskhub.Protocol.Wire.OfferLimits
import Deskhub.Session.LinkPulseWatch
import Deskhub.Control.QualityLadderRungs
import Deskhub.Control.QualityLadderClimbs
import Deskhub.Session.ViewerFeedback
import Deskhub.Control.FrameGate
import Deskhub.Control.ClockOffset
import Deskhub.Media.H264Stream
import Deskhub.Media.PcmRing
import Deskhub.Media.RgbDownscale
import Deskhub.Cli.CommandAccepted
import Deskhub.Cli.JsonWriter
import Deskhub.Ui.HostProfiles
import Deskhub.Ui.RecentDevices
