import DomainAuction.AuctionError
import DomainAuction.Bytes.Endian
import DomainAuction.Bytes.Octets
import DomainAuction.Console
import DomainAuction.Crypto.Edwards25519
import DomainAuction.Crypto.Sha2
import DomainAuction.Crypto.SigningKey
import DomainAuction.Deployment
import DomainAuction.Domain.Basic
import DomainAuction.Domain.Operations
import DomainAuction.Flow
import DomainAuction.Instruction.Basic
import DomainAuction.Instruction.Payload
import DomainAuction.Ledger
import DomainAuction.Lookup.Batches
import DomainAuction.Lookup.History
import DomainAuction.Lookup.Searches
import DomainAuction.Node.Basic
import DomainAuction.Operation.Accounts
import DomainAuction.Operation.Basic
import DomainAuction.Packing.Layout
import DomainAuction.Price.Decimal
import DomainAuction.Price.Oracle
import DomainAuction.Proofs.Deployment.CentralState
import DomainAuction.Proofs.Deployment.Changes
import DomainAuction.Proofs.Domain.Addresses
import DomainAuction.Proofs.Flow.Claims
import DomainAuction.Proofs.Flow.Failures
import DomainAuction.Proofs.Flow.Signers
import DomainAuction.Proofs.Instruction.Codec
import DomainAuction.Proofs.Instruction.LongTexts
import DomainAuction.Proofs.Instruction.Versions
import DomainAuction.Proofs.Lengths
import DomainAuction.Proofs.Lookup.BatchedAnswers
import DomainAuction.Proofs.Lookup.BidderAuctions
import DomainAuction.Proofs.Lookup.EndingAuctions
import DomainAuction.Proofs.Lookup.History
import DomainAuction.Proofs.Lookup.LateBids
import DomainAuction.Proofs.Lookup.Listing
import DomainAuction.Proofs.Lookup.OwnedDomains
import DomainAuction.Proofs.Lookup.ReverseLookups
import DomainAuction.Proofs.Lookup.SearchedHistory
import DomainAuction.Proofs.Lookup.Views
import DomainAuction.Proofs.Lookup.WrittenRecords
import DomainAuction.Proofs.Operation.Building
import DomainAuction.Proofs.Operation.Roles
import DomainAuction.Proofs.Packing.Cuts
import DomainAuction.Proofs.Packing.Exact
import DomainAuction.Proofs.Packing.Fields
import DomainAuction.Proofs.Packing.Framing
import DomainAuction.Proofs.Packing.Taking
import DomainAuction.Proofs.Positional
import DomainAuction.Proofs.Price.PriceAccount
import DomainAuction.Proofs.Price.RoundTrip
import DomainAuction.Proofs.Record.AccountData
import DomainAuction.Proofs.Record.HeaderPlaces
import DomainAuction.Proofs.Record.Refusals
import DomainAuction.Proofs.Running
import DomainAuction.Proofs.Scan.AddressWindows
import DomainAuction.Proofs.Scan.Buckets
import DomainAuction.Proofs.Scan.HeaderWindows
import DomainAuction.Proofs.Scan.NarrowestWindows
import DomainAuction.Proofs.Transaction.ReadBack
import DomainAuction.Proofs.Transaction.SignerSets
import DomainAuction.Record.Auction
import DomainAuction.Record.Name
import DomainAuction.Record.Sale
import DomainAuction.Rpc.Client
import DomainAuction.Rpc.TransactionError
import DomainAuction.Scan.EndingAuctions
import DomainAuction.Settings
import DomainAuction.Text.Base58
import DomainAuction.Text.Base64
import DomainAuction.Text.Blank
import DomainAuction.Text.Utf8
import DomainAuction.Transaction.Compile
import DomainAuction.Transaction.Draft
import DomainAuction.Transaction.Payloads
