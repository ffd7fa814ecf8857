import ChainMarketPrice.Distribution.TokenBucketTheorems
import ChainMarketPrice.CoreEngine.SpscRingBufferTheorems
import ChainMarketPrice.CoreEngine.IsolatedConsumerQueueTheorems
import ChainMarketPrice.CoreEngine.KernelBypassTheorems
import ChainMarketPrice.Distribution.Shm
import ChainMarketPrice.Distribution.ShmInterleaving
import ChainMarketPrice.Distribution.ShmInterleavingTheorems
import ChainMarketPrice.Distribution.ShmTheorems
import ChainMarketPrice.Distribution.ClientBitmap
import ChainMarketPrice.Distribution.ClientBitmapTheorems
import ChainMarketPrice.Lib.FiniteMap
import ChainMarketPrice.Distribution.ClientSession
import ChainMarketPrice.Distribution.FastJson
import ChainMarketPrice.Distribution.Sbe
import ChainMarketPrice.Distribution.TopicKey
import ChainMarketPrice.Distribution.FastJsonTheorems
import ChainMarketPrice.Distribution.Router
import ChainMarketPrice.Distribution.RouterTheorems
import ChainMarketPrice.Distribution.RouterInterleaving
import ChainMarketPrice.Distribution.RouterInterleavingTheorems
import ChainMarketPrice.CefiIngest.Json
import ChainMarketPrice.CefiIngest.Timestamp
import ChainMarketPrice.CoreEngine.FixedPoint
import ChainMarketPrice.CefiIngest.Coinbase
import ChainMarketPrice.LiveFeed.Session
import ChainMarketPrice.LiveFeed.LossDetection
import ChainMarketPrice.Distribution.WebSocket
import ChainMarketPrice.Distribution.WebSocketTheorems
import ChainMarketPrice.Distribution.SubscriptionIsolation
import ChainMarketPrice.LiveFeed.SessionRun
import ChainMarketPrice.LiveFeed.SessionRunTheorems
import ChainMarketPrice.LiveFeed.TradeEmission
import ChainMarketPrice.LiveFeed.TradeOrder
import ChainMarketPrice.LiveFeed.TradeCoverage
import ChainMarketPrice.LiveFeed.Rebaseline
import ChainMarketPrice.CoreEngine.KernelBypassDelivery
import ChainMarketPrice.CoreEngine.OrderBook
import ChainMarketPrice.CoreEngine.OrderBookTheorems
import ChainMarketPrice.AmmVirtualizer.ConcentratedLiquidity
import ChainMarketPrice.AmmVirtualizer.UniswapV4
import ChainMarketPrice.AmmVirtualizer.Curve
import ChainMarketPrice.AmmVirtualizer.AskWrites
import ChainMarketPrice.AmmVirtualizer.BestAsk
import ChainMarketPrice.Distribution.FrameAccess
import ChainMarketPrice.Distribution.SpreadFilter
import ChainMarketPrice.Distribution.FrameAccessTheorems
import ChainMarketPrice.Distribution.FrameSafety
import ChainMarketPrice.Lib.Packed
import ChainMarketPrice.Distribution.SbeTheorems
import ChainMarketPrice.Distribution.SbeSchema
import ChainMarketPrice.Distribution.TokenBucketInterleaving
import ChainMarketPrice.CoreEngine.IsolatedConsumerQueueSequential
import ChainMarketPrice.Distribution.FastJsonText
import ChainMarketPrice.Distribution.RouterIndex
import ChainMarketPrice.Distribution.WireFormats
import ChainMarketPrice.Distribution.Broadcast
import ChainMarketPrice.Distribution.UnsubscribeCommand
import ChainMarketPrice.CefiIngest.SequenceTrackerTheorems
import ChainMarketPrice.CoreEngine.FixedPointTheorems
import ChainMarketPrice.Distribution.PriceRoundTrip
import ChainMarketPrice.CefiIngest.JsonTheorems
import ChainMarketPrice.CefiIngest.Okx
import ChainMarketPrice.Distribution.TokenBucketWidths
import ChainMarketPrice.Distribution.TokenBucketOrigin
import ChainMarketPrice.AmmVirtualizer.TickDepth
import ChainMarketPrice.AmmVirtualizer.UniswapV2
import ChainMarketPrice.Lib.ConstantProduct
import ChainMarketPrice.OnchainIngest.SpeculativeSwap
import ChainMarketPrice.AmmVirtualizer.U256Theorems
import ChainMarketPrice.Lib.RepeatingMask
import ChainMarketPrice.Distribution.InboundFrames
import ChainMarketPrice.Distribution.ColonSpelling
import ChainMarketPrice.CefiIngest.TimestampTheorems
import ChainMarketPrice.CefiIngest.FlatJson
import ChainMarketPrice.CefiIngest.CheckedParsers
import ChainMarketPrice.LiveFeed.MessageCounting
import ChainMarketPrice.CoreEngine.FixedPointOverflow
import ChainMarketPrice.CefiIngest.CheckedParsersTheorems
import ChainMarketPrice.LiveFeed.CheckedSession
import ChainMarketPrice.LiveFeed.OverflowFree
import ChainMarketPrice.LiveFeed.OverflowFreeRuns
import ChainMarketPrice.CefiIngest.IoUring
import ChainMarketPrice.CoreEngine.CooperativeScheduler
import ChainMarketPrice.AmmVirtualizer.SpotPrice
import ChainMarketPrice.AmmVirtualizer.IntegerSqrt
import ChainMarketPrice.AmmVirtualizer.LevelPrices
import ChainMarketPrice.AmmVirtualizer.HookFees
import ChainMarketPrice.AmmVirtualizer.StableswapInvariant
import ChainMarketPrice.OnchainIngest.ImpactOrder
import ChainMarketPrice.OnchainIngest.PredictionAccuracy
import ChainMarketPrice.AmmVirtualizer.StableswapConvergence
import ChainMarketPrice.Distribution.HeaderPrefix
import ChainMarketPrice.Distribution.CanonicalDigits
import ChainMarketPrice.Distribution.BitmapSets
import ChainMarketPrice.Distribution.DeliveryAccounting
import ChainMarketPrice.Distribution.DeliveryRate
import ChainMarketPrice.Distribution.MixedDispatch
import ChainMarketPrice.Distribution.ClientIsolation
import ChainMarketPrice.Lib.Backoff
import ChainMarketPrice.CoreEngine.WaitStrategy
import ChainMarketPrice.CoreEngine.WaitStrategyTheorems
import ChainMarketPrice.CoreEngine.BurstMode
import ChainMarketPrice.CoreEngine.SpscSequential
import ChainMarketPrice.LiveFeed.Runner
import ChainMarketPrice.LiveFeed.RunnerSession
import ChainMarketPrice.LiveFeed.RunnerTheorems
import ChainMarketPrice.CefiIngest.TransportPlayback
import ChainMarketPrice.CefiIngest.TransportSockets
import ChainMarketPrice.CefiIngest.Binance
import ChainMarketPrice.AmmVirtualizer.StableswapOutput
import ChainMarketPrice.CoreEngine.FastPrng
import ChainMarketPrice.CoreEngine.SimulatedDelivery
