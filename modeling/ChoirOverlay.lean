import ChoirOverlay.Machine.Run
import ChoirOverlay.Machine.Log
import ChoirOverlay.Base.Bytes
import ChoirOverlay.Json.Value
import ChoirOverlay.Ipc.State
import ChoirOverlay.Discord.Messages
import ChoirOverlay.Discord.Oauth
import ChoirOverlay.Discord.Transport
import ChoirOverlay.Host.OverlayState
import ChoirOverlay.Host.RpcClient
import ChoirOverlay.Host.RpcFacts
import ChoirOverlay.Host.Run
import ChoirOverlay.Json.Text
import ChoirOverlay.Host.Coherence
import ChoirOverlay.Host.Peer
import ChoirOverlay.Host.VoiceSession
import ChoirOverlay.Host.SelectedReply
import ChoirOverlay.Host.StateServer
import ChoirOverlay.Host.Authentication
import ChoirOverlay.Host.TokenExchange
import ChoirOverlay.Ipc.Protocol
import ChoirOverlay.Ipc.Stream
import ChoirOverlay.Overlay.StateClient
import ChoirOverlay.Overlay.HostLoss
import ChoirOverlay.System.World
import ChoirOverlay.System.Replica
import ChoirOverlay.System.Synced
import ChoirOverlay.Layer.Swapchain
import ChoirOverlay.Layer.Present
import ChoirOverlay.Host.Hello
import ChoirOverlay.Host.Broadcast
import ChoirOverlay.Machine.Deframe
import ChoirOverlay.Host.Inbound
import ChoirOverlay.Host.Isolation
import ChoirOverlay.Overlay.Reading
import ChoirOverlay.Host.Receiving
import ChoirOverlay.System.Streams
import ChoirOverlay.Discord.Polling
import ChoirOverlay.Discord.Sending
import ChoirOverlay.Machine.Topics
import ChoirOverlay.Host.Subscriptions
import ChoirOverlay.Host.Feed
import ChoirOverlay.System.Crossing
import ChoirOverlay.Host.Entering
import ChoirOverlay.Host.Reconnect
import ChoirOverlay.Layer.Gates
import ChoirOverlay.Machine.Fences
import ChoirOverlay.Layer.Lifecycle
import ChoirOverlay.Layer.Fences
import ChoirOverlay.Overlay.HostDeath
import ChoirOverlay.Machine.Handles
import ChoirOverlay.Gl.Interposer
import ChoirOverlay.Gl.Incarnations
import ChoirOverlay.Machine.Crash
import ChoirOverlay.Host.Backends
import ChoirOverlay.Host.Installed
import ChoirOverlay.Host.Freshness
import ChoirOverlay.Machine.Presence
import ChoirOverlay.Host.History
import ChoirOverlay.Overlay.Toasts
import ChoirOverlay.Base.Rounding
import ChoirOverlay.Json.Single
import ChoirOverlay.Discord.Texts
import ChoirOverlay.Base.Glob
import ChoirOverlay.Host.Denylist
import ChoirOverlay.Host.Config
import ChoirOverlay.Host.Held
import ChoirOverlay.Json.Size
import ChoirOverlay.Host.WireSize
import ChoirOverlay.Host.Hosting
import ChoirOverlay.Host.FrameBound
import ChoirOverlay.Base.Cut
import ChoirOverlay.Ipc.Markup
import ChoirOverlay.Ipc.Runs
import ChoirOverlay.Ipc.Characters
import ChoirOverlay.Ipc.Splitting
import ChoirOverlay.Ipc.Restore
import ChoirOverlay.Discord.Bidi
import ChoirOverlay.Overlay.Layout
import ChoirOverlay.Ipc.AvatarFile
import ChoirOverlay.Base.Firsts
import ChoirOverlay.Host.AvatarCache
import ChoirOverlay.Overlay.ToastText
import ChoirOverlay.System.EmojiKeys
import ChoirOverlay.Json.Fronts
import ChoirOverlay.Host.InPlace
import ChoirOverlay.Host.ConfigFile
import ChoirOverlay.Host.Settings
import ChoirOverlay.Host.Narrowing
import ChoirOverlay.Base.Lines
import ChoirOverlay.Host.Autostart
import ChoirOverlay.Base.DesktopEntry
import ChoirOverlay.Host.AutostartEntry
import ChoirOverlay.System.AvatarPaths
import ChoirOverlay.Base.Shell
import ChoirOverlay.Host.WrapperScript
import ChoirOverlay.Layer.Devices
import ChoirOverlay.Machine.Custody
import ChoirOverlay.Layer.AvatarTextures
import ChoirOverlay.Layer.SwapchainObjects
import ChoirOverlay.System.Pipes
import ChoirOverlay.System.Deployment
import ChoirOverlay.System.Views
import ChoirOverlay.System.Denied
import ChoirOverlay.Machine.Holders
import ChoirOverlay.Machine.Keyed
import ChoirOverlay.Machine.CrashLogic
import ChoirOverlay.Host.Consent
import ChoirOverlay.Host.Outbound
import ChoirOverlay.Layer.ImguiRenderer
import ChoirOverlay.Layer.Estate
import ChoirOverlay.Layer.Accounts
import ChoirOverlay.Layer.Control
import ChoirOverlay.Layer.Dispatch
import ChoirOverlay.Gl.Textures
import ChoirOverlay.Gl.Unseen
