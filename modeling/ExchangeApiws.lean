import ExchangeApiws.ForStd.TransitionSystem
import ExchangeApiws.Spec.BookFeed
import ExchangeApiws.Spec.BookSequence
import ExchangeApiws.Spec.Klines
import ExchangeApiws.Spec.ClassifySubmit
import ExchangeApiws.Spec.RetryLoops
import ExchangeApiws.Spec.NonceOrder
import ExchangeApiws.Spec.SubmitOnce
import ExchangeApiws.Spec.WsOrderCorrect
import ExchangeApiws.Spec.RunFeed
import ExchangeApiws.Spec.Shutdown
import ExchangeApiws.Spec.OrderFills
import ExchangeApiws.Spec.Supervisor
import ExchangeApiws.Spec.Uptime
import ExchangeApiws.Spec.MsgGuard
import ExchangeApiws.Spec.RefreshDelay
import ExchangeApiws.Spec.PendingMap
import ExchangeApiws.Spec.KlinePaging
import ExchangeApiws.Spec.Heartbeat
import ExchangeApiws.Spec.Backoff
import ExchangeApiws.Spec.FeedPanic
import ExchangeApiws.Spec.SequenceIds
import ExchangeApiws.Spec.Level2Delta
import ExchangeApiws.Spec.BookViews
import ExchangeApiws.Spec.QueryEncoding
import ExchangeApiws.Spec.RawQueries
import ExchangeApiws.Spec.ContractSizing
import ExchangeApiws.Spec.TopicRouting
import ExchangeApiws.Spec.FrameSymbols
import ExchangeApiws.Spec.FiniteBooks
import ExchangeApiws.Spec.Envelopes
import ExchangeApiws.Spec.ParamsString
import ExchangeApiws.Spec.PairKeyed
import ExchangeApiws.Spec.HeartbeatRuns
import ExchangeApiws.Spec.FeedBooks
import ExchangeApiws.Spec.SupervisedDeliveries
import ExchangeApiws.Spec.FeedFills
import ExchangeApiws.Spec.RecordRoundTrip
import ExchangeApiws.Spec.RetryPacing
import ExchangeApiws.Spec.ServerTime
import ExchangeApiws.Spec.WsOrderFrames
import ExchangeApiws.Spec.UnsequencedBooks
