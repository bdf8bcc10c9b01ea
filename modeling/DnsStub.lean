import DnsStub.Text.Ascii
import DnsStub.Registry
import DnsStub.Wire.Error
import DnsStub.Wire.BigEndian
import DnsStub.Wire.Reader
import DnsStub.Wire.Writer
import DnsStub.Net.Address
import DnsStub.Message.Header
import DnsStub.Text.Utf8
import DnsStub.Text.CaseData
import DnsStub.Text.Lowercase
import DnsStub.Text.Punycode
import DnsStub.Name.Basic
import DnsStub.Name.Text
import DnsStub.Name.Scan
import DnsStub.Wire.Progress
import DnsStub.Record.Data
import DnsStub.Record.TypeBitmap
import DnsStub.Record.Encode
import DnsStub.Record.Info
import DnsStub.Record.Decode
import DnsStub.Net.AddressSyntax
import DnsStub.Message.Builder
import DnsStub.Message.Response
import DnsStub.Net.NameServer
import DnsStub.Resolve.Options
import DnsStub.Resolve.Error
import DnsStub.Resolve.Cache
import DnsStub.Resolve.Script
import DnsStub.Resolve.Lookup
import DnsStub.Resolve.Resolver
import DnsStub.Proofs.Reading
import DnsStub.Proofs.NameReading
import DnsStub.Proofs.NameCompression
import DnsStub.Proofs.CacheRefinement
import DnsStub.Proofs.Failover
import DnsStub.Proofs.Writing
import DnsStub.Proofs.HeaderCodec
import DnsStub.Proofs.TypeBitmapCodec
import DnsStub.Proofs.RecordCodec
import DnsStub.Proofs.MessageCodec
import DnsStub.Proofs.LookupCache
import DnsStub.Proofs.NameValidity
import DnsStub.Proofs.NameText
import DnsStub.Proofs.PunycodeRoundTrip
import DnsStub.Proofs.UnicodeLabels
import DnsStub.Proofs.LookupTime
import DnsStub.Proofs.Cancellation
import DnsStub.Proofs.RdataLength
import DnsStub.Proofs.RdataLocality
import DnsStub.Proofs.RdataRoundTrip
import DnsStub.Proofs.CacheLifetime
import DnsStub.Proofs.HeaderRoundTrip
import DnsStub.Proofs.TypeBitmapWindows
import DnsStub.Proofs.NameScanSafety
import DnsStub.Proofs.NameEquality
import DnsStub.Proofs.ReaderAtomicity
import DnsStub.Proofs.RdataLimits
import DnsStub.Text.Punycode.Words
import DnsStub.Proofs.PunycodeWords
import DnsStub.Proofs.WriterRefinement
