import RavenCash.Assets.NullData
import RavenCash.Assets.ReissueUndo
import RavenCash.Assets.Rewards
import RavenCash.Assets.TagRun
import RavenCash.Assets.VerifierWrites
import RavenCash.Consensus.Restriction
import RavenCash.Consensus.VerifierMeaning
import RavenCash.Validation.Mempool
import RavenCash.Validation.ProcessBlock
import RavenCash.Validation.Spending
import RavenCash.Validation.Supply
import RavenCash.Header.DarkGravityWave
import RavenCash.Llmq.ChainLocks
import RavenCash.Bls.AggregatedShares
import RavenCash.Llmq.Connections
import RavenCash.Llmq.MinablePool
import RavenCash.Llmq.NonLockedTxs
import RavenCash.Dkg.Finalize
import RavenCash.Dkg.Pending
import RavenCash.Governance.Orphan
import RavenCash.Governance.Superblock
import RavenCash.Governance.VoteFile
import RavenCash.PrivateSend.Signing
import RavenCash.Assets.Snapshots
import RavenCash.Spork.CheckAndRemove
import RavenCash.Assets.HashText
import RavenCash.Header.ActiveChain
import RavenCash.Header.VersionBits
import RavenCash.Consensus.MerkleBlock
import RavenCash.Consensus.CompactBlock
import RavenCash.Coins.Compressor
import RavenCash.Basic.BitSet
import RavenCash.Llmq.Sessions
import RavenCash.Assets.LinkedCache
