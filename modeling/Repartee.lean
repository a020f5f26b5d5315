import Repartee.App.Aliases
import Repartee.App.Contexts
import Repartee.App.Frames
import Repartee.App.Ignores
import Repartee.App.JoinQueries
import Repartee.App.LogBrowser
import Repartee.App.Networks
import Repartee.App.Passthrough
import Repartee.App.Reconnects
import Repartee.App.Shrink
import Repartee.App.SocketOutput
import Repartee.App.Talking
import Repartee.App.WebCommands
import Repartee.Config.EnvEdits
import Repartee.Config.Lenses
import Repartee.Config.Restart
import Repartee.Config.Tables
import Repartee.Dcc.Chats
import Repartee.Dcc.Consent
import Repartee.Dcc.Ports
import Repartee.Dcc.Protocol
import Repartee.E2e.Autotrust
import Repartee.E2e.Binding
import Repartee.E2e.Codec
import Repartee.E2e.Consent
import Repartee.E2e.Convergence
import Repartee.E2e.Distribution
import Repartee.E2e.Encryption
import Repartee.E2e.Forgetting
import Repartee.E2e.Framing
import Repartee.E2e.Limits
import Repartee.E2e.Migration
import Repartee.E2e.Portable
import Repartee.E2e.Rejection
import Repartee.E2e.Replay
import Repartee.E2e.Reverify
import Repartee.E2e.Revocation
import Repartee.E2e.RoundTrip
import Repartee.Irc.Bans
import Repartee.Irc.Batch
import Repartee.Irc.Bursts
import Repartee.Irc.Chunks
import Repartee.Irc.Dispatch
import Repartee.Irc.Formatting
import Repartee.Irc.Modes
import Repartee.Irc.Sasl
import Repartee.Irc.Splitting
import Repartee.Irc.Summaries
import Repartee.Irc.Unban
import Repartee.Lib.Codec
import Repartee.Lib.Exec
import Repartee.Lib.Lens
import Repartee.Lib.Mirror
import Repartee.Lib.Newest
import Repartee.Lib.Replace
import Repartee.Lib.Run
import Repartee.Lib.Split
import Repartee.Lib.Table
import Repartee.Lib.Template
import Repartee.Lib.WebUrl
import Repartee.Scripting.Bus
import Repartee.Scripting.Ownership
import Repartee.Shrink.Cache
import Repartee.Shrink.Host
import Repartee.Shrink.Substitute
import Repartee.Shrink.Urls
import Repartee.State.Consistency
import Repartee.State.Interference
import Repartee.State.Quiet
import Repartee.State.Replay
import Repartee.Storage.Backlog
import Repartee.Storage.Log
import Repartee.Storage.Scrollback
import Repartee.Storage.Writer
import Repartee.Theme.Data
import Repartee.Ui.ChatClick
import Repartee.Ui.ChatView
import Repartee.Ui.Completion
import Repartee.Ui.Editor
import Repartee.Ui.Emotes
import Repartee.Ui.Wizard
import Repartee.Ui.Wrap
import Repartee.Web.Agreement
import Repartee.Web.Css
import Repartee.Web.Emotify
import Repartee.Web.ImageCache
import Repartee.Web.Links
import Repartee.Web.MessageLists
import Repartee.Web.Preview
import Repartee.Web.PublicAddress
import Repartee.Web.RateLimiter
import Repartee.Web.Replication
import Repartee.Web.Sessions
import Repartee.Web.Sync
