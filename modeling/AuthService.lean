import AuthService.Theorems.Redirect
import AuthService.Theorems.RedirectRoundTrip
import AuthService.Theorems.AuthRedirect
import AuthService.Theorems.RateLimiter
import AuthService.Theorems.RedisRateLimiter
import AuthService.Theorems.CircuitBreaker
import AuthService.Theorems.UnitOfWork
import AuthService.Theorems.Revocation
import AuthService.Theorems.AccountDeletion
import AuthService.Theorems.CredentialChange
import AuthService.Theorems.Pagination
import AuthService.Theorems.CursorDecoding
import AuthService.Theorems.DeletedUsers
import AuthService.Theorems.RoleLedger
import AuthService.Theorems.IssueAtomicity
import AuthService.Theorems.ClientIp
import AuthService.Theorems.KeyFetching
import AuthService.Theorems.TokenValidation
import AuthService.Theorems.ClaimChecks
import AuthService.Theorems.SessionExpiry
import AuthService.Theorems.IdentityResolution
import AuthService.Theorems.ReplayAudit
import AuthService.Theorems.Timestamps
import AuthService.Theorems.ErrorPointers
import AuthService.Theorems.ProblemDetails
import AuthService.Theorems.AdminSearch
import AuthService.Theorems.PublicLocale
import AuthService.Theorems.ReplaySummary
import AuthService.Theorems.ProviderIsolation
import AuthService.Theorems.Lockout
import AuthService.Theorems.CsrfBootstrap
import AuthService.Theorems.CsrfProtection
import AuthService.Theorems.LoginSecrecy
import AuthService.Theorems.BruteForce
import AuthService.Theorems.RoleReplacement
import AuthService.Theorems.OidcState
import AuthService.Theorems.OidcFreshness
