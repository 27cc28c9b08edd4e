import SecureChat.Common.ByteLoops
import SecureChat.Common.Client
import SecureChat.Common.Envelope
import SecureChat.Common.Truncation
import SecureChat.Common.Reload
import SecureChat.Common.Discovery
import SecureChat.Common.PluginOrigin
import SecureChat.Common.ViewRefresher
import SecureChat.Common.EventBuffer
import SecureChat.Common.LogThreads
import SecureChat.Common.KeyPairs
import SecureChat.Common.Shutdown
import SecureChat.Server.Connections
import SecureChat.Server.Credentials
import SecureChat.Server.Deletion
import SecureChat.Server.Isolation
import SecureChat.Server.LoginEffects
import SecureChat.Server.Logout
import SecureChat.Server.Passwords
import SecureChat.Server.Agreement
import SecureChat.Dashboard.Todos
