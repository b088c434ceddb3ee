import OpsUp.Interaction.RelyGuarantee
import OpsUp.Interaction.Transition
import OpsUp.Storage.Table
import OpsUp.Go.Hex
import OpsUp.Go.Base64
import OpsUp.Go.Path
import OpsUp.Go.Json
import OpsUp.Js.Text
import OpsUp.Js.Pattern
import OpsUp.Crypto.Encryption
import OpsUp.Models.Server
import OpsUp.Api.ServerHandler
import OpsUp.Api.Validation
import OpsUp.Api.SaveRules
import OpsUp.Api.SaveEffects
import OpsUp.Api.RecordInvariant
import OpsUp.Api.JumpReferences
import OpsUp.Api.ConcurrentUpdates
import OpsUp.Database.Credentials
import OpsUp.Database.Migrations
import OpsUp.Database.MigrationRuns
import OpsUp.SshClient.Client
import OpsUp.Interaction.Interference
import OpsUp.Interaction.OnceGuards
import OpsUp.SshClient.Ownership
import OpsUp.SshClient.Session
import OpsUp.Posix.FileTree
import OpsUp.SftpClient.Files
import OpsUp.SshClient.OwnershipRules
import OpsUp.SshClient.TransportOwnership
import OpsUp.Api.Connection
import OpsUp.Api.CredentialStore
import OpsUp.SftpClient.Upload
import OpsUp.SftpClient.UploadRuns
import OpsUp.Posix.Disk
import OpsUp.Configuration.SecretsFile
import OpsUp.Configuration.Load
import OpsUp.Configuration.SecretsRuns
import OpsUp.Configuration.Stability
import OpsUp.Configuration.Retry
import OpsUp.Api.SftpHandler
import OpsUp.Api.SftpDelete
import OpsUp.Auth.Token
import OpsUp.Limits.FixedWindow
import OpsUp.Api.RateLimit
import OpsUp.Api.HostKeyPins
import OpsUp.Api.RdpPins
import OpsUp.Ui.HostKey
import OpsUp.Models.User
import OpsUp.Api.AuthHandler
import OpsUp.Api.TerminalHandler
import OpsUp.Api.TerminalInput
import OpsUp.Api.TerminalOutput
import OpsUp.Ui.InputFrames
import OpsUp.Api.TerminalFrames
import OpsUp.Ui.TerminalConnection
import OpsUp.Ui.ConnectionGuards
import OpsUp.Ui.InputPump
import OpsUp.Ui.Directory
import OpsUp.Ui.DirectoryRequests
import OpsUp.Ui.DirectoryRows
import OpsUp.Go.Asn1
import OpsUp.Api.RdpRequest
import OpsUp.Interaction.TwoRuns
import OpsUp.Models.Secrets
import OpsUp.Api.CredentialFlow
import OpsUp.Api.RdpHandler
import OpsUp.Api.RdpRelay
import OpsUp.Api.RdpGateway
import OpsUp.Api.RdpRuns
import OpsUp.Ui.Tabs
import OpsUp.Crypto.Slices
import OpsUp.Database.MigrationIndex
import OpsUp.Interaction.CopyLoop
import OpsUp.Api.OutputLoops
import OpsUp.Api.StoredRecords
import OpsUp.Ui.UndeliveredInput
import OpsUp.Interaction.Links
import OpsUp.Interaction.Embedding
import OpsUp.Ui.ClientFrames
import OpsUp.Api.SessionCourse
import OpsUp.EndToEnd.Numbers
import OpsUp.EndToEnd.TerminalLink
import OpsUp.Api.RemoteHandlers
import OpsUp.Api.RemoteRelease
import OpsUp.Api.RemoteAnswers
import OpsUp.Interaction.Earned
import OpsUp.Api.AuthRoutes
import OpsUp.Api.AuthRuns
import OpsUp.EndToEnd.Restart
import OpsUp.Ui.CertFingerprint
import OpsUp.Ui.ServerForm
import OpsUp.Ui.ServerFormRuns
import OpsUp.EndToEnd.FormSave
import OpsUp.Ui.RdpClient
import OpsUp.Ui.RdpConnections
import OpsUp.Ui.RdpTab
import OpsUp.Ui.RdpTabRuns
import OpsUp.EndToEnd.DesktopLink
