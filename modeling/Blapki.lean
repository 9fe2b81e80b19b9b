import Blapki.Effect
import Blapki.Table
import Blapki.Basic
import Blapki.X509
import Blapki.Crates
import Blapki.Reply
import Blapki.Roundtrip
import Blapki.Authority
import Blapki.Repo
import Blapki.Lifecycle
import Blapki.Isolation
import Blapki.Interleaving
import Blapki.Upsert
import Blapki.Enrolment
import Blapki.Responder
import Blapki.Agreement
import Blapki.Codec
import Blapki.Reference
import Blapki.Device
import Blapki.Soundness
import Blapki.Oracle
import Blapki.Validator
import Blapki.Atomicity
import Blapki.Issuer
import Blapki.Extensions
import Blapki.App
import Blapki.Signing
import Blapki.Audit
import Blapki.Decision
import Blapki.Replay
import Blapki.Capability
import Blapki.Publication
import Blapki.SignedAttributes
import Blapki.FirstMatch
import Blapki.Recipients
import Blapki.Conformance
import Blapki.Resolution
import Blapki.Issuable
import Blapki.Startup
import Blapki.Material
import Blapki.Token
import Blapki.Calendar
import Blapki.Window
import Blapki.Blocks
import Blapki.Panic
import Blapki.Serial
import Blapki.Percent
import Blapki.Routing
import Blapki.IssuerName
import Blapki.Handler
import Blapki.Intune
import Blapki.Credentials
import Blapki.Server
import Blapki.Delegation
import Blapki.Notification
import Blapki.Consistency
import Blapki.Restart
import Blapki.Accounts
