import DhtCrawler.ActorRates
import DhtCrawler.BudgetRuns
import DhtCrawler.ClockBounds
import DhtCrawler.CrawlAttempts
import DhtCrawler.CrawlBackoff
import DhtCrawler.CrawlSnapshot
import DhtCrawler.DiscoveryDedup
import DhtCrawler.DiscoveryIntervals
import DhtCrawler.FetchReassembly
import DhtCrawler.IngressDelivery
import DhtCrawler.KrpcEndpoints
import DhtCrawler.KrpcRoundTrip
import DhtCrawler.LimiterSources
import DhtCrawler.LookupLife
import DhtCrawler.PoolPressure
import DhtCrawler.QueuePolicy
import DhtCrawler.RaceVerdict
import DhtCrawler.RetryDeferral
import DhtCrawler.RetryDue
import DhtCrawler.RetryNovelty
import DhtCrawler.RoutingShape
import DhtCrawler.ServerAttribution
import DhtCrawler.ServerSources
import DhtCrawler.SnapshotRotation
import DhtCrawler.TorrentParse
