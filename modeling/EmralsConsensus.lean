import EmralsConsensus.Basic
import EmralsConsensus.ChainParams
import EmralsConsensus.ChainParams.VersionBits
import EmralsConsensus.Index.Node
import EmralsConsensus.Tx.Check
import EmralsConsensus.Tx.Valid
import EmralsConsensus.Modifier.Select
import EmralsConsensus.Modifier.Argmin
import EmralsConsensus.Modifier.Compute
import EmralsConsensus.Modifier.Grow
import EmralsConsensus.Modifier.Rounds
import EmralsConsensus.Modifier.Window
import EmralsConsensus.Modifier.Store
import EmralsConsensus.Modifier.Replay
import EmralsConsensus.Modifier.Checksum
import EmralsConsensus.Kernel.Locate
import EmralsConsensus.Kernel.Walk
import EmralsConsensus.Kernel.Hash
import EmralsConsensus.Kernel.ProofOfStake
import EmralsConsensus.Kernel.Revalidate
import EmralsConsensus.Kernel.Fresh
