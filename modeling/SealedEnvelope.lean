import SealedEnvelope.Bytes
import SealedEnvelope.Call.Body
import SealedEnvelope.Call.Client
import SealedEnvelope.Call.Config
import SealedEnvelope.Call.Error
import SealedEnvelope.Call.Exchange
import SealedEnvelope.Call.Login
import SealedEnvelope.Call.Payload
import SealedEnvelope.Clock
import SealedEnvelope.CommandLine.Arguments
import SealedEnvelope.CommandLine.Outline
import SealedEnvelope.CommandLine.Run
import SealedEnvelope.Crypto.Aes
import SealedEnvelope.Crypto.Ed25519
import SealedEnvelope.Crypto.Field25519
import SealedEnvelope.Crypto.Sha2
import SealedEnvelope.Crypto.Standard
import SealedEnvelope.Crypto.Suite
import SealedEnvelope.Crypto.X25519
import SealedEnvelope.Entropy
import SealedEnvelope.Entropy.Congruential
import SealedEnvelope.Envelope.Cipher
import SealedEnvelope.Envelope.DataBlock
import SealedEnvelope.Envelope.Element
import SealedEnvelope.Envelope.Error
import SealedEnvelope.Envelope.Keys
import SealedEnvelope.Envelope.Seal
import SealedEnvelope.Gateway.Config
import SealedEnvelope.Gateway.Logins
import SealedEnvelope.Gateway.Server
import SealedEnvelope.Handshake.Bundle
import SealedEnvelope.Handshake.Session
import SealedEnvelope.Http.Call
import SealedEnvelope.Http.MediaType
import SealedEnvelope.Http.Message
import SealedEnvelope.Http.Target
import SealedEnvelope.Http.Token
import SealedEnvelope.Json.Binary64
import SealedEnvelope.Json.NumberText
import SealedEnvelope.Json.Reader
import SealedEnvelope.Json.Record
import SealedEnvelope.Json.Value
import SealedEnvelope.Json.Writer
import SealedEnvelope.Keyed
import SealedEnvelope.Main
import SealedEnvelope.Peer.PrekeyStore
import SealedEnvelope.Peer.Responder
import SealedEnvelope.Proofs.Bytes
import SealedEnvelope.Proofs.Crypto.Aes
import SealedEnvelope.Proofs.Crypto.Standard
import SealedEnvelope.Proofs.Crypto.Substitution
import SealedEnvelope.Proofs.Crypto.Suite
import SealedEnvelope.Proofs.Envelope.Cipher
import SealedEnvelope.Proofs.Envelope.DataBlock
import SealedEnvelope.Proofs.Envelope.Format
import SealedEnvelope.Proofs.Envelope.RoundTrip
import SealedEnvelope.Proofs.Envelope.Sealing
import SealedEnvelope.Proofs.Handshake.Agreement
import SealedEnvelope.Proofs.Handshake.Authenticity
import SealedEnvelope.Proofs.Handshake.Conversation
import SealedEnvelope.Proofs.Outcome
import SealedEnvelope.Proofs.Text.Spelling
import SealedEnvelope.Proofs.Time.Calendar
import SealedEnvelope.Proofs.Time.Timestamp
import SealedEnvelope.Proofs.Wire.Framing
import SealedEnvelope.Text.Base64
import SealedEnvelope.Text.Blank
import SealedEnvelope.Text.Hex
import SealedEnvelope.Text.Numeral
import SealedEnvelope.Text.Quoted
import SealedEnvelope.Text.Utf8
import SealedEnvelope.Text.Visible
import SealedEnvelope.Time.Calendar
import SealedEnvelope.Time.Instant
import SealedEnvelope.Time.Rfc3339
import SealedEnvelope.Updating
import SealedEnvelope.Wire.LengthValue
import SealedEnvelope.Proofs.Peer.PrekeyStore
import SealedEnvelope.Proofs.Wire.Concatenation
import SealedEnvelope.Proofs.Gateway.History
import SealedEnvelope.Proofs.Gateway.SingleUse
import SealedEnvelope.Proofs.Peer.PrekeyQueue
import SealedEnvelope.Proofs.Call.Payload
import SealedEnvelope.Proofs.Call.Playback
import SealedEnvelope.Proofs.Envelope.Size
import SealedEnvelope.Proofs.Gateway.Delivery
import SealedEnvelope.Proofs.Gateway.EchoCall
import SealedEnvelope.Proofs.Gateway.Interleaving
import SealedEnvelope.Proofs.Envelope.SignatureGate
import SealedEnvelope.Proofs.Gateway.LoginTable
import SealedEnvelope.Proofs.Gateway.LoginCall
import SealedEnvelope.Proofs.Gateway.SessionKeys
import SealedEnvelope.Proofs.Gateway.CleanUp
import SealedEnvelope.Proofs.Call.LoginState
import SealedEnvelope.Proofs.Envelope.Expiry
import SealedEnvelope.Proofs.Peer.PrekeyPurge
import SealedEnvelope.Proofs.Call.AnsweredLogin
import SealedEnvelope.Proofs.Gateway.Honours
import SealedEnvelope.Proofs.Gateway.Line
import SealedEnvelope.Proofs.Gateway.ClientLogin
import SealedEnvelope.Proofs.Envelope.Ciphertext
import SealedEnvelope.Proofs.Time.TimeField
import SealedEnvelope.Proofs.Json.Nesting
import SealedEnvelope.Proofs.Handshake.PeerKeys
import SealedEnvelope.Proofs.Gateway.DryEntropy
import SealedEnvelope.Proofs.Wire.Truncation
import SealedEnvelope.Proofs.Peer.PrekeyCapacity
import SealedEnvelope.Proofs.Call.SecuredExchange
import SealedEnvelope.Proofs.Envelope.Integrity
import SealedEnvelope.Proofs.Envelope.Element
import SealedEnvelope.Proofs.CommandLine.RoundTrip
