import SignedSession.Bytes.Basic
import SignedSession.Bytes.BigEndian
import SignedSession.Text.Utf8
import SignedSession.Text.Blank
import SignedSession.Text.Hex
import SignedSession.Text.Base64
import SignedSession.Hash.Sha256
import SignedSession.Hash.Hmac
import SignedSession.Hash.Hkdf
import SignedSession.Time.Duration
import SignedSession.Time.Instant
import SignedSession.Time.Calendar
import SignedSession.Setting
import SignedSession.Error
import SignedSession.Log
import SignedSession.SecretKey
import SignedSession.Randomness
import SignedSession.UsernameHash
import SignedSession.Token
import SignedSession.Policy
import SignedSession.Session
import SignedSession.Toml.Reader
import SignedSession.Toml.Quoted
import SignedSession.Toml.Key
import SignedSession.Toml.Value
import SignedSession.Toml.Scalar
import SignedSession.Toml.Table
import SignedSession.Toml.Document
import SignedSession.Config
import SignedSession.Proofs.Result
import SignedSession.Proofs.Base64
import SignedSession.Proofs.Alphabet
import SignedSession.Proofs.SubKey
import SignedSession.Proofs.Digest
import SignedSession.Proofs.Derivation
import SignedSession.Proofs.Lifetime
import SignedSession.Proofs.Wire
import SignedSession.Proofs.Verification
import SignedSession.Proofs.Aging
import SignedSession.Proofs.Issuing
import SignedSession.Proofs.SlidingSession
import SignedSession.Proofs.Tampering
import SignedSession.Proofs.SecretAtRest
import SignedSession.Proofs.FreshSecret
import SignedSession.Proofs.Veil
import SignedSession.Proofs.Refusal
import SignedSession.Proofs.Reporting
import SignedSession.Proofs.Windows
import SignedSession.Proofs.Settings
import SignedSession.Proofs.Decimal
import SignedSession.Proofs.Lines
import SignedSession.Proofs.Tables
import SignedSession.Proofs.Trees
import SignedSession.Proofs.Meaning
import SignedSession.Proofs.RoundTrip
import SignedSession.Proofs.WellFormedUtf8
import SignedSession.Proofs.Loading
import SignedSession.Proofs.Gregorian
import SignedSession.Proofs.LoggedTimes
import SignedSession.Proofs.Renderings
