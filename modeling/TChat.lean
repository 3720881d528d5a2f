import TChat.Admission
import TChat.Bcrypt.Modes
import TChat.Bcrypt.Passwords
import TChat.Chat
import TChat.Client.Attempts
import TChat.Client.Losses
import TChat.Common.Ui
import TChat.Console
import TChat.Credentials
import TChat.Display
import TChat.Heartbeat
import TChat.Kicks
import TChat.Lines
import TChat.Login
import TChat.Parser.RoundTrip
import TChat.Records
import TChat.Registration
import TChat.Safety
import TChat.Server.Accounts
import TChat.Server.Answers
import TChat.Server.Backlog
import TChat.Server.Closing
import TChat.Server.Handles
import TChat.Server.Hangups
import TChat.Server.Identity
import TChat.Server.Ownership
import TChat.Server.Pings
import TChat.Server.Segmentation
import TChat.Server.SessionStates
import TChat.Server.Ticks
import TChat.Server.Tokens
import TChat.Server.Wakeups
