import Keld.Window.Calls
import Keld.Window.Mirror
import Keld.Window.Isolation
import Keld.Update.Invariant
import Keld.Ipc.Admission
import Keld.Attempt.Acceptance
import Keld.Runtime.RoleSafety
import Keld.Kipc.ReceiveLaw
import Keld.Kipc.WindowAgree
import Keld.Guardian.HostSafety
import Keld.Profile.BootSafety
import Keld.Profile.RegistrySafety
import Keld.Bridge.Safety
import Keld.Session.EchoLaw
import Keld.Auth.BrokerLaw
import Keld.Ipc.BootstrapLaw
import Keld.Ipc.RendezvousLaw
import Keld.Strict.Law
import Keld.Archive.Inverse
import Keld.Attempt.Window
import Keld.Update.Acceptance
import Keld.Auth.TokenGuard
import Keld.Fs.Agreement
import Keld.Guard.CommentsLaw
import Keld.Update.ManifestLaw
import Keld.Auth.FormLaw
import Keld.Fs.WriteLaw
import Keld.Update.FullLaw
import Keld.Pack.HostIdentityLaw
import Keld.Auth.LoopbackLaw
import Keld.Kipc.WriteQueueLaw
import Keld.Window.FactLinkLaw
import Keld.Runtime.ReadLaw
import Keld.Guard.Admit
import Keld.Guardian.GenerationWire
import Keld.Strict.Readiness
import Keld.Ipc.ChannelTable
import Keld.Window.SessionEnd
import Keld.Window.Adoption
import Keld.Session.QuitDrain
