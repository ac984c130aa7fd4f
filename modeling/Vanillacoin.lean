import Vanillacoin.Network.Table
import Vanillacoin.Network.Manager
import Vanillacoin.Network.Tick
import Vanillacoin.Network.Async
import Vanillacoin.Network.Invariants
import Vanillacoin.Network.Capacity
import Vanillacoin.Network.Diversity
import Vanillacoin.Network.Outstanding
import Vanillacoin.Network.Quiescence
import Vanillacoin.Network.TopUp
import Vanillacoin.Network.Bootstrap
import Vanillacoin.Network.Lifecycle
import Vanillacoin.Config.Stoul
import Vanillacoin.Mining.Miner
import Vanillacoin.Mining.Loop
import Vanillacoin.Mining.Cancellation
import Vanillacoin.Mining.ExtraNonce
import Vanillacoin.Mining.Submission
import Vanillacoin.Mining.Search
import Vanillacoin.Mining.Threads
import Vanillacoin.Mining.Rate
import Vanillacoin.Config.Load
import Vanillacoin.Database.Stack
