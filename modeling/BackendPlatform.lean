import BackendPlatform.RefreshFamilies
import BackendPlatform.LoginChallenges
import BackendPlatform.DeactivatedAccounts
import BackendPlatform.AccountRecovery
import BackendPlatform.SharedRedis
import BackendPlatform.ResetCodes
import BackendPlatform.SessionMarkers
import BackendPlatform.ClientAddresses
import BackendPlatform.GatewayRoutes
import BackendPlatform.TokenPolicies
import BackendPlatform.TokenReuse
import BackendPlatform.PasswordResets
import BackendPlatform.RevokedSessions
import BackendPlatform.RotationHistory
import BackendPlatform.FirstContacts
import BackendPlatform.ConcurrentSessions
import BackendPlatform.OverlappingContacts
import BackendPlatform.OverlappingRuns
import BackendPlatform.RoleGrants
import BackendPlatform.ChallengeStanding
import BackendPlatform.TwoFactorStates
import BackendPlatform.AuditPayloads
import BackendPlatform.TotpAcceptance
import BackendPlatform.ResetMails
import BackendPlatform.SlidingWindows
import BackendPlatform.LockoutBounds
import BackendPlatform.RateLimits
import BackendPlatform.MailReadiness
import BackendPlatform.DotenvValues
import BackendPlatform.RenderedSecrets
import BackendPlatform.InterruptedRuns
import BackendPlatform.EarnedBlocks
import BackendPlatform.Registrations
import BackendPlatform.DotenvFiles
import BackendPlatform.RegeneratedSettings
import BackendPlatform.KeptSettings
import BackendPlatform.LastingRecords
import BackendPlatform.LiveCodes
import BackendPlatform.LastingUsers
import BackendPlatform.DelegatedRights
import BackendPlatform.SignInOrigins
import BackendPlatform.AccountChanges
import BackendPlatform.BrowserAuthentication
import BackendPlatform.IssuedTokens
import BackendPlatform.AuditTrail
import BackendPlatform.AuditedSessions
