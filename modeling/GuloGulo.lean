import GuloGulo.Js.Pattern
import GuloGulo.Js.Base64
import GuloGulo.Js.Decode
import GuloGulo.CalDav.Canonical
import GuloGulo.CalDav.NestingGrammar
import GuloGulo.CalDav.TextValues
import GuloGulo.CardDav.Representation
import GuloGulo.Dav.SyncTokens
import GuloGulo.CalDav.StoreSync
import GuloGulo.CalDav.ReadBack
import GuloGulo.CalDav.InterleavedSync
import GuloGulo.Lifecycle.Replay
import GuloGulo.Admin.LedgerRuns
import GuloGulo.Lifecycle.Wiring
import GuloGulo.Lifecycle.RetentionAtomicity
import GuloGulo.Lifecycle.Holds
import GuloGulo.Mail.Accounting
import GuloGulo.Mail.RoundTrip
import GuloGulo.Mail.IdleDelivery
import GuloGulo.Mail.QueueRuns
import GuloGulo.Abuse.GuardRuns
import GuloGulo.Auth.TotpRuns
import GuloGulo.Auth.RecoveryRuns
import GuloGulo.Admin.DelegationIsolation
import GuloGulo.Backup.PurgedArchives
import GuloGulo.Dav.RoundTrips
import GuloGulo.Integrations.GrossQuota
import GuloGulo.CalDav.StoredCreate
import GuloGulo.CalDav.SerialWrites
import GuloGulo.Dav.Atomicity
import GuloGulo.Identity.LoginRuns
import GuloGulo.Realtime.CoalescerRuns
import GuloGulo.Integrations.MigrationRuns
import GuloGulo.Secrets.CompareAndSwap
import GuloGulo.Web.AttachmentUrls
import GuloGulo.Admin.Reservations
import GuloGulo.Mail.Backoff
import GuloGulo.Mail.SmtpClient
import GuloGulo.Mail.ImapFetch
import GuloGulo.Lifecycle.PurgeProgress
import GuloGulo.Runtime.LogSecrecy
import GuloGulo.Web.SessionRuns
import GuloGulo.Runtime.SignInAtomicity
import GuloGulo.Mail.ImapDelivery
import GuloGulo.Mail.QuotedPrintable
import GuloGulo.Mail.Sieve
import GuloGulo.Runtime.MfaScope
import GuloGulo.Web.TokenRuns
