import Outlayer.Contract.Correctness.Conservation
import Outlayer.Contract.Correctness.WayOut
import Outlayer.Contract.Correctness.Settlements
import Outlayer.Contract.Correctness.Quotes
import Outlayer.Contract.Correctness.PendingPages
import Outlayer.Worker.Correctness.Environment
import Outlayer.Worker.Correctness.Submission
import Outlayer.Contract.Correctness.Plans
import Outlayer.Contract.Correctness.Deposits
import Outlayer.Contract.Correctness.SecretPrices
import Outlayer.Contract.Correctness.SecretIndex
import Outlayer.Contract.Correctness.NonceReuse
import Outlayer.Contract.Correctness.Registry
import Outlayer.Contract.Correctness.Transfers
import Outlayer.Contract.Correctness.PolicySignatures
import Outlayer.Vault.Correctness.KeyList
import Outlayer.Vault.Correctness.Recoveries
import Outlayer.KeystoreDao.Correctness.VaultRegistry
import Outlayer.KeystoreDao.Correctness.RevokedKeys
import Outlayer.KeystoreDao.Correctness.Decisions
import Outlayer.Keystore.Correctness.Walks
import Outlayer.Keystore.Correctness.Serving
import Outlayer.Keystore.Correctness.AgentRows
import Outlayer.Keystore.Correctness.DerivedKeys
import Outlayer.Keystore.Correctness.Solana
import Outlayer.Keystore.Correctness.Encryption
import Outlayer.Keystore.Correctness.SecretUpdates
import Outlayer.Keystore.Correctness.UpdateMessages
import Outlayer.Keystore.Correctness.Ballots
import Outlayer.Worker.Correctness.Balances
import Outlayer.Worker.Correctness.Charges
import Outlayer.Worker.Correctness.PendingRuns
import Outlayer.Worker.Correctness.Delegates
import Outlayer.Worker.Correctness.Times
import Outlayer.Worker.Correctness.Devices
import Outlayer.Worker.Correctness.Prepared
import Outlayer.Worker.Correctness.Sealing
import Outlayer.Github.Correctness.Patterns
import Outlayer.Github.Correctness.Outcomes
import Outlayer.Github.Correctness.Budget
import Outlayer.Worker.Correctness.WasmCache
import Outlayer.Worker.Correctness.Counters
import Outlayer.Keystore.Correctness.IntegerFields
