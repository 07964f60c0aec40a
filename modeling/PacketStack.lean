import PacketStack.Bytes.Basic
import PacketStack.Bytes.Checksum
import PacketStack.Bytes.Reader
import PacketStack.Bytes.Writer
import PacketStack.Number.Basic
import PacketStack.Number.Rounding
import PacketStack.Number.Text
import PacketStack.Contract
import PacketStack.Fault
import PacketStack.Correction
import PacketStack.Field
import PacketStack.Layout
import PacketStack.Ipv6.Header
import PacketStack.Ipv6.Draft
import PacketStack.Udp.Header
import PacketStack.Udp.Draft
import PacketStack.Redirected.Header
import PacketStack.Redirected.Draft
import PacketStack.Ssh.Header
import PacketStack.Ssh.Draft
import PacketStack.Packet
import PacketStack.Builder
import PacketStack.Layer
import PacketStack.Diagnostics
import PacketStack.Registry
import PacketStack.Decode
import PacketStack.Workbench
import PacketStack.Proofs.Wire
import PacketStack.Proofs.Dissection
import PacketStack.Proofs.Handles
import PacketStack.Proofs.Rebuild
import PacketStack.Proofs.Quarantine
import PacketStack.Proofs.PlainTables
import PacketStack.Proofs.Nesting
import PacketStack.Proofs.Acceptance
import PacketStack.Proofs.Lossless
import PacketStack.Proofs.Embedding
import PacketStack.Proofs.Sizes
import PacketStack.Proofs.ExactLengths
import PacketStack.Proofs.LengthCorrection
import PacketStack.Proofs.OnesComplement
import PacketStack.Proofs.Lookups
import PacketStack.Proofs.Tunnels
import PacketStack.Proofs.UdpChecksum
import PacketStack.Proofs.TableSessions
import PacketStack.Proofs.NestingDepth
import PacketStack.Proofs.DerivedLengths
import PacketStack.Proofs.Endings
import PacketStack.Proofs.Records
import PacketStack.Proofs.Independence
import PacketStack.Proofs.OptionUnits
import PacketStack.Proofs.LostCarries
import PacketStack.Proofs.Numerals
import PacketStack.Proofs.TableValues
import PacketStack.Proofs.AppendedBytes
import PacketStack.Proofs.HeaderFields
import PacketStack.Proofs.Rendering
import PacketStack.Proofs.BytesInOrder
import PacketStack.Proofs.Cursor
import PacketStack.Proofs.ReadBack
import PacketStack.Proofs.ChangedByte
