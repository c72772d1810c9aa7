import ProjectArgo.Library.Bytes
import ProjectArgo.CarPlay.Basic
import ProjectArgo.CarPlay.Iap2
import ProjectArgo.CarPlay.SendWindow
import ProjectArgo.Library.Run
import ProjectArgo.CarPlay.Csm
import ProjectArgo.CarPlay.Authentication
import ProjectArgo.CarPlay.Wired
import ProjectArgo.CarPlay.Media
import ProjectArgo.CarPlay.VideoStream
import ProjectArgo.View.MediaContract
import ProjectArgo.View.Agreement
import ProjectArgo.View.MediaSocket
import ProjectArgo.CarPlay.UsbMux
import ProjectArgo.CarPlay.UsbMuxIntegrity
import ProjectArgo.CarPlay.Crypto
import ProjectArgo.CarPlay.Pairing
import ProjectArgo.CarPlay.PairingStore
import ProjectArgo.CarPlay.Audio
import ProjectArgo.CarPlay.ControlCipher
import ProjectArgo.CarPlay.ControlDecoder
import ProjectArgo.CarPlay.Receiver
import ProjectArgo.CarPlay.ReceiverSession
import ProjectArgo.CarPlay.ReceiverWire
import ProjectArgo.CarPlay.ReceiverGating
import ProjectArgo.CarPlay.MicrophoneNonces
import ProjectArgo.Power.HostPowerBridge
import ProjectArgo.Power.HostSuspend
import ProjectArgo.Power.CanTransport
import ProjectArgo.Projection.AccessPoint
import ProjectArgo.CarPlay.RuntimeControl
import ProjectArgo.Library.Protobuf
import ProjectArgo.Projection.Proto
import ProjectArgo.Projection.Channels
import ProjectArgo.Projection.Discovery
import ProjectArgo.Projection.ChannelSteps
import ProjectArgo.Projection.ChannelGating
import ProjectArgo.Projection.TouchReplay
import ProjectArgo.Projection.DaemonState
import ProjectArgo.Projection.Session
import ProjectArgo.Projection.VideoFocus
import ProjectArgo.Projection.UsbLifecycle
import ProjectArgo.Projection.UsbRuntime
import ProjectArgo.Projection.UsbLease
import ProjectArgo.Projection.UsbAttempts
import ProjectArgo.Microphone.Exclusion
import ProjectArgo.Can.Attachments
import ProjectArgo.Audio.AudioService
import ProjectArgo.Microphone.Ownership
import ProjectArgo.Audio.FocusOwnership
import ProjectArgo.Projection.ProjectionAudio
import ProjectArgo.Projection.AudioReconciliation
import ProjectArgo.Library.Crash
import ProjectArgo.Settings.SettingsService
import ProjectArgo.Settings.CrashConsistency
import ProjectArgo.Library.Json
import ProjectArgo.Assistant.AssistantBridge
import ProjectArgo.Assistant.AtMostOnce
import ProjectArgo.Assistant.WakeFocus
import ProjectArgo.Library.Assoc
import ProjectArgo.Projection.Multiplex
import ProjectArgo.Projection.MultiplexOwnership
import ProjectArgo.CarPlay.AudioReception
import ProjectArgo.Library.Framing
import ProjectArgo.Projection.Ipc
import ProjectArgo.Projection.AaWire
import ProjectArgo.Projection.AaMessages
import ProjectArgo.CarPlay.Management
import ProjectArgo.CarPlay.NoLostUpdates
import ProjectArgo.Connectivity.Clients
import ProjectArgo.Connectivity.Handover
import ProjectArgo.Connectivity.Controllers
import ProjectArgo.Connectivity.Revocation
import ProjectArgo.Projection.WireReaders
import ProjectArgo.Projection.MetadataUpdates
import ProjectArgo.View.SameVerdict
import ProjectArgo.CarPlay.ScreenStream
import ProjectArgo.CarPlay.ControlFragments
import ProjectArgo.CarPlay.ControlChannel
import ProjectArgo.CarPlay.TlvRoundTrip
import ProjectArgo.CarPlay.CsmGroups
import ProjectArgo.CarPlay.Iap2Stream
import ProjectArgo.Camera.CaptureLoop
import ProjectArgo.CarPlay.Ncm
import ProjectArgo.CarPlay.SessionClock
import ProjectArgo.Projection.MicrophoneCredits
import ProjectArgo.Projection.PeerLiveness
import ProjectArgo.Projection.PlaybackCache
import ProjectArgo.Camera.Blanking
import ProjectArgo.Connectivity.Phonebook
import ProjectArgo.Camera.Presentation
import ProjectArgo.Climate.ClimateService
import ProjectArgo.Connectivity.Preferences
import ProjectArgo.Connectivity.ExplicitIntent
import ProjectArgo.Library.Reading
import ProjectArgo.Projection.IpcPayload
import ProjectArgo.Projection.MetadataAgreement
import ProjectArgo.Camera.Ring
import ProjectArgo.Can.SocketCan
import ProjectArgo.Can.FrameDelivery
import ProjectArgo.Can.SocketCanCodec
import ProjectArgo.Projection.CarPlayOrder
import ProjectArgo.CarPlay.Link
import ProjectArgo.CarPlay.LinkCorrelation
import ProjectArgo.CarPlay.Discovery
import ProjectArgo.CarPlay.DiscoveryAnswers
import ProjectArgo.Connectivity.Music
import ProjectArgo.Connectivity.RoutePlan
import ProjectArgo.Library.Filling
import ProjectArgo.Projection.PcmReader
import ProjectArgo.Projection.VersionNegotiation
import ProjectArgo.Projection.Artwork
import ProjectArgo.CarPlay.MicrophonePackets
import ProjectArgo.Assistant.AssistantSchema
import ProjectArgo.Projection.ProjectionPreferences
import ProjectArgo.Projection.ViewportFitting
import ProjectArgo.Library.Writing
import ProjectArgo.Projection.PreferenceStorage
import ProjectArgo.Projection.PreferenceAtomicity
import ProjectArgo.Projection.ProjectionSettings
import ProjectArgo.Projection.ViewportConvergence
import ProjectArgo.Lifecycle.AppLifecycleCoordinator
import ProjectArgo.Lifecycle.ShutdownOrder
import ProjectArgo.Camera.JobOwnership
import ProjectArgo.MediaSession.CachedMediaSession
import ProjectArgo.MediaSession.Registry
import ProjectArgo.MediaSession.SerializedOperations
import ProjectArgo.Projection.WirelessAdmission
import ProjectArgo.Connectivity.CallIdentity
