import Hyperchains.Library.Panic
import Hyperchains.Library.ParentChain
import Hyperchains.ClarityValue
import Hyperchains.Events
import Hyperchains.Withdrawal
import Hyperchains.ContractCall
import Hyperchains.SubnetContract
import Hyperchains.WithdrawalSoundness
import Hyperchains.BlockAssembly
import Hyperchains.Sortition
import Hyperchains.OperationRanges
import Hyperchains.L1SubnetContract
import Hyperchains.Redemption
import Hyperchains.BlockCommit
import Hyperchains.SortitionProcessing
import Hyperchains.Deposits
import Hyperchains.Library.RadixTree
import Hyperchains.Marf.Node
import Hyperchains.Marf.Cursor
import Hyperchains.Marf.Storage
import Hyperchains.Marf.Trie
import Hyperchains.Marf.Walk
import Hyperchains.Marf.Transaction
import Hyperchains.Marf.NodeSpec
import Hyperchains.Marf.CursorSpec
import Hyperchains.Marf.Represent
import Hyperchains.Marf.StorageSpec
import Hyperchains.Marf.Lookup
import Hyperchains.Marf.Proofs
import Hyperchains.SoarDb
import Hyperchains.WithdrawalIds
import Hyperchains.Library.Bytes
import Hyperchains.Bloom
import Hyperchains.BurnchainEvents
import Hyperchains.BurnIndexer
import Hyperchains.BurnIndexerSpec
import Hyperchains.Library.Reader
import Hyperchains.Transaction
import Hyperchains.TransactionSpec
import Hyperchains.TransactionRoundTrip
import Hyperchains.Marf.ChildMap
import Hyperchains.BloomCodec
import Hyperchains.ReorgDetection
import Hyperchains.BloomCounter
import Hyperchains.Library.OrderStatistics
import Hyperchains.Library.Float
import Hyperchains.FeeMedians
import Hyperchains.FeeMediansSpec
import Hyperchains.Marf.Bits
import Hyperchains.Marf.BitsSpec
import Hyperchains.Microblocks
import Hyperchains.MicroblocksSpec
import Hyperchains.Library.TopK
import Hyperchains.Pessimistic
import Hyperchains.PessimisticSpec
import Hyperchains.FeeScalar
import Hyperchains.FeeScalarSpec
import Hyperchains.MemPool
import Hyperchains.MemPoolSpec
import Hyperchains.MemPoolRefinement
